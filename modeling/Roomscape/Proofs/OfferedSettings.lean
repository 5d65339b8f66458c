import Roomscape.Program
import Roomscape.Proofs.ScanOrders
import Roomscape.Proofs.Session
import Roomscape.Proofs.TaskRuns

/-! Settings that were accepted: they have an offset that fits the display and a window with pixels. With
such settings activation sends a whole palette, and a frame that is composed is not empty. -/
namespace Roomscape

namespace ViewConfig

/-- The offset fits the display, and the scroll window has pixels. -/
structure Showable (c : ViewConfig) : Prop where
  offset : c.paletteOffset.toNat ≤ 64
  width : 0 < c.scrollWidth
  height : 0 < c.scrollHeight

theorem showable_standard : standard.Showable := ⟨by decide, by decide, by decide⟩

theorem showable_of_validate {c : ViewConfig} (valid : c.validate = .ok ()) : c.Showable := by
  rw [validate] at valid
  cases checked : checkPaletteOffset c.paletteOffset with
  | error fault =>
    rw [checked] at valid
    cases valid
  | ok _ =>
    rw [checked] at valid
    by_cases empty : c.scrollWidth = 0 ∨ c.scrollHeight = 0
    · simp [empty, bind, Except.bind, throw, throwThe, MonadExceptOf.throw] at valid
    · exact ⟨checkPaletteOffset_eq_ok_iff.mp checked, by omega, by omega⟩

theorem showable_of_parse {text : String} {c : ViewConfig} (parsed : parse text = .ok c) :
    c.Showable := by
  rw [parse] at parsed
  split at parsed
  · cases parsed
    exact showable_standard
  · split at parsed
    · cases parsed
    · rename_i own _
      cases valid : own.validate with
      | error fault =>
        rw [valid] at parsed
        cases parsed
      | ok _ =>
        rw [valid] at parsed
        cases parsed
        exact showable_of_validate valid

end ViewConfig

variable {σ : Type} {host : Host (StateM σ)} {s t : σ} {c : ViewConfig}

theorem Host.showable_of_load {path : UnixPath}
    (loaded : (host.loadConfig path).outcome s = (.ok c, t)) : c.Showable := by
  obtain ⟨text, u, _, rest⟩ := Task.outcome_bind_eq_ok loaded
  match text with
  | .error why => cases (Task.outcome_throw _ u).symm.trans rest
  | .ok text =>
    rw [Task.outcome_ofExcept] at rest
    exact ViewConfig.showable_of_parse (congrArg Prod.fst rest)

theorem Host.showable_of_discover {named : Option UnixPath} {folder : UnixPath}
    {source : Option UnixPath}
    (found : (host.discoverConfig named folder).outcome s = (.ok (c, source), t)) :
    c.Showable := by
  cases named with
  | some path =>
    obtain ⟨own, u, loaded, rest⟩ := Task.outcome_bind_eq_ok found
    cases (Task.outcome_pure _ u).symm.trans rest
    exact showable_of_load loaded
  | none =>
    obtain ⟨isFile, u, _, rest⟩ := Task.outcome_bind_eq_ok found
    cases isFile with
    | true =>
      obtain ⟨own, v, loaded, rest⟩ := Task.outcome_bind_eq_ok rest
      cases (Task.outcome_pure _ v).symm.trans rest
      exact showable_of_load loaded
    | false =>
      cases (Task.outcome_pure _ u).symm.trans rest
      exact ViewConfig.showable_standard

/-- Settings that a text, a file or a search for one can give, on any system; or that any other reader
of texts comes to, once they are validated. -/
inductive ViewConfig.Offered : ViewConfig → Prop where
  | validated {c : ViewConfig} (valid : c.validate = .ok ()) : Offered c
  | parsed {text : String} {c : ViewConfig} (parsed : parse text = .ok c) : Offered c
  | loaded {σ : Type} {host : Host (StateM σ)} {path : UnixPath} {s t : σ} {c : ViewConfig}
      (loaded : (host.loadConfig path).outcome s = (.ok c, t)) : Offered c
  | discovered {σ : Type} {host : Host (StateM σ)} {named : Option UnixPath} {folder : UnixPath}
      {s t : σ} {c : ViewConfig} {source : Option UnixPath}
      (found : (host.discoverConfig named folder).outcome s = (.ok (c, source), t)) : Offered c

theorem ViewConfig.Offered.showable (offered : c.Offered) : c.Showable := by
  cases offered with
  | validated valid => exact showable_of_validate valid
  | parsed parsed => exact showable_of_parse parsed
  | loaded loaded => exact Host.showable_of_load loaded
  | discovered found => exact Host.showable_of_discover found

namespace Program

variable (host) {config : ViewConfig}

theorem compose_eq (showable : config.Showable) (room : Room) (x y : Int32) (order : ScanOrder) :
    compose host config room x y order = (do
      host.note (.activated room.name room.placements.length)
      let frame ← ofExcept (Viewer.window ⟨some room, config.paletteOffset⟩ x y
        config.scrollWidth config.scrollHeight order)
      return (frame, Display.ofPhoto room.photo.palette config.paletteOffset)) := by
  have accepted :
      Viewer.initial.withOffset config.paletteOffset = .ok ⟨none, config.paletteOffset⟩ := by
    rw [Viewer.withOffset_eq, if_pos showable.offset]
    rfl
  unfold compose
  rw [accepted]
  simp only [Viewer.activate, Register.send]
  refine (pure_bind _ _).trans ?_
  dsimp only
  rw [Palette.ofBytes_toBytes]
  rfl

/-- The frame of a window with pixels is not empty. -/
theorem isEmpty_of_compose (showable : config.Showable) {room : Room} {x y : Int32}
    {order : ScanOrder} {frame : Grid UInt8} {table : Display} {s t : σ}
    (run : (compose host config room x y order).outcome s = (.ok (frame, table), t)) :
    frame.isEmpty = false := by
  rw [compose_eq host showable] at run
  obtain ⟨_, u, _, run⟩ := Task.outcome_bind_eq_ok run
  obtain ⟨made, v, window, run⟩ := Task.outcome_bind_eq_ok run
  cases (Task.outcome_pure _ v).symm.trans run
  rw [Task.outcome_ofExcept] at window
  have made := congrArg Prod.fst window
  have area := Viewer.window_area made
  have width := showable.width
  have height := showable.height
  have tall : config.scrollHeight ≤ largestBuffer :=
    Nat.le_trans (Nat.le_mul_of_pos_left _ width) area
  obtain ⟨wide, high, _⟩ := Viewer.window_of_ok tall made
  have pixels : 0 < frame.pixels.size := by
    rw [frame.size_pixels, wide, high]
    exact Nat.mul_pos width height
  exact Bool.eq_false_iff.mpr fun empty => by
    rw [Grid.isEmpty, Array.isEmpty_iff_size_eq_zero] at empty
    omega

end Program
end Roomscape
