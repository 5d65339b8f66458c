import Roomscape.Proofs.DisplayColours
import Roomscape.Proofs.PaletteBytes
import Roomscape.Proofs.Window

/-! Sessions on one screen and one display. Sprites are placed into rooms, offsets are set, rooms are
put on screen, and lines and windows are read off it, in any order. Offset, active room and the
display's palette are all that a session remembers, and each of them is what its history says. -/
namespace Roomscape

variable {ι : Type}

/-- Something that is done in a session. The rooms are told apart by `ι`. -/
inductive Action (ι : Type) where
  | place (room : ι) (sprite : Placement)
  | setOffset (offset : UInt8)
  | activate (room : ι)
  | fill (course : Course) (x y : Int32) (buffer : Array UInt8)
  | window (x y : Int32) (width height : Nat) (order : ScanOrder)

namespace Action

/-- The offset that an action sets, if it is one that is accepted. -/
def accepted? : Action ι → Option UInt8
  | .setOffset offset => if offset.toNat ≤ 64 then some offset else none
  | _ => none

def activated? : Action ι → Option ι
  | .activate room => some room
  | _ => none

/-- The sprite that an action places into a room. -/
def placed? [DecidableEq ι] (room : ι) : Action ι → Option Placement
  | .place target sprite => if target = room then some sprite else none
  | _ => none

theorem accepted?_le {a : Action ι} {offset : UInt8} (accepted : a.accepted? = some offset) :
    offset.toNat ≤ 64 := by
  cases a with
  | setOffset own =>
    obtain ⟨fits, same⟩ := Option.ite_none_right_eq_some.mp accepted
    exact Option.some.inj same ▸ fits
  | _ => cases accepted

theorem eq_activate {a : Action ι} {room : ι} (activated : a.activated? = some room) :
    a = .activate room := by
  cases a with
  | activate own => exact congrArg Action.activate (Option.some.inj activated)
  | _ => cases activated

/-- Lines and windows are read off the screen. -/
def reads : Action ι → Bool
  | .fill .. | .window .. => true
  | _ => false

end Action

/-- What an action gives back. -/
inductive Answer where
  | done
  | line (bytes : Array UInt8)
  | frame (pixels : Grid UInt8)

/-- The rooms as they are built so far, the screen, and the display behind it. -/
structure Session (ι : Type) where
  rooms : ι → Room
  viewer : Viewer
  register : Register

namespace Session

variable [DecidableEq ι]

def start (rooms : ι → Room) : Session ι := ⟨rooms, .initial, .untouched⟩

def act (s : Session ι) : Action ι → Except Fault Answer × Session ι
  | .place room sprite =>
    let grown := (s.rooms room).place sprite
    (.ok .done, { s with rooms := fun other => if other = room then grown else s.rooms other })
  | .setOffset offset =>
    match s.viewer.withOffset offset with
    | .ok viewer => (.ok .done, { s with viewer })
    | .error fault => (.error fault, s)
  | .activate room =>
    let (viewer, register, _) := s.viewer.activate (s.rooms room) s.register
    (.ok .done, { s with viewer, register })
  | .fill course x y buffer => (.ok (.line (s.viewer.fill course x y buffer)), s)
  | .window x y width height order => ((s.viewer.window x y width height order).map .frame, s)

def run (s : Session ι) (history : List (Action ι)) : Session ι :=
  history.foldl (fun s a => (s.act a).2) s

end Session

namespace Room

variable [DecidableEq ι]

/-- The room with all that was placed into it. -/
def after (r : Room) (room : ι) (history : List (Action ι)) : Room :=
  { r with placements := r.placements ++ history.filterMap (Action.placed? room) }

theorem after_append (r : Room) (room : ι) (history : List (Action ι)) (a : Action ι) :
    r.after room (history ++ [a]) =
      match a.placed? room with
      | some sprite => (r.after room history).place sprite
      | none => r.after room history := by
  simp only [after, List.filterMap_append, List.filterMap_cons, List.filterMap_nil]
  cases a.placed? room with
  | none => simp
  | some sprite => simp [place]

end Room

namespace Viewer

variable (v : Viewer)

theorem withOffset_eq (offset : UInt8) :
    v.withOffset offset =
      if offset.toNat ≤ 64 then .ok { v with offset } else .error (.paletteOffset offset.toNat) := by
  rw [withOffset, checkPaletteOffset, highestPaletteOffset]
  split
  · rw [if_neg (by omega)]
    rfl
  · rw [if_pos (by omega)]
    rfl

/-- A line does not show what its buffer held. -/
theorem fill_eq_line (course : Course) (x y : Int32) (buffer : Array UInt8) :
    v.fill course x y buffer = v.line course x y buffer.size := by
  apply Array.ext_getElem?
  intro i
  rw [line, v.getElem?_fill, v.getElem?_fill]
  by_cases inside : i < buffer.size
  · simp [inside]
  · simp [inside]

end Viewer

/-- A palette as a display was sent it: 576 bytes of six bits, from which the palette is rebuilt. -/
structure Palette.SentAs (p : Palette) (bytes : List UInt8) : Prop where
  length : bytes.length = 576
  sixBits : ∀ b ∈ bytes, b.toNat < 64
  rebuilt : Palette.ofBytes bytes.toArray = .ok p

theorem Palette.sentAs_toBytes (p : Palette) : p.SentAs p.toBytes :=
  ⟨p.length_toBytes, p.toBytes_lt, p.ofBytes_toBytes⟩

namespace Session

variable [DecidableEq ι]

/-- What the history of a session says of its state. The room on screen is the one of the last
activation, as it stood then; what was placed into it later is not shown. -/
structure Follows (rooms : ι → Room) (history : List (Action ι)) (s : Session ι) : Prop where
  room_eq : ∀ room, s.rooms room = (rooms room).after room history
  offset_le : s.viewer.offset.toNat ≤ 64
  offset_eq : s.viewer.offset = (history.filterMap Action.accepted?).getLast?.getD 0
  writes_eq : s.register.writes = (history.filterMap Action.activated?).length
  active_iff : s.viewer.active.isSome ↔ 0 < s.register.writes
  shown : 0 < s.register.writes → ∃ before room later,
    history = before ++ .activate room :: later ∧ (∀ a ∈ later, a.activated? = none) ∧
      s.viewer.active = some ((rooms room).after room before) ∧
      ∃ bytes, s.register.last = some bytes ∧ (rooms room).photo.palette.SentAs bytes

section Steps

variable (s : Session ι) (a : Action ι)

theorem act_accepted {offset : UInt8} (fits : offset.toNat ≤ 64) :
    s.act (.setOffset offset) = (.ok .done, { s with viewer := { s.viewer with offset } }) := by
  rw [act, Viewer.withOffset_eq, if_pos fits]

theorem act_rejected {offset : UInt8} (large : 64 < offset.toNat) :
    s.act (.setOffset offset) = (.error (.paletteOffset offset.toNat), s) := by
  rw [act, Viewer.withOffset_eq, if_neg (Nat.not_le.mpr large)]

/-- A room grows by the sprite that is placed into it. -/
theorem rooms_act (room : ι) : (s.act a).2.rooms room =
    match a.placed? room with
    | some sprite => (s.rooms room).place sprite
    | none => s.rooms room := by
  cases a with
  | place target sprite =>
    by_cases same : target = room
    · subst same
      simp [act, Action.placed?]
    · simp [act, Action.placed?, same, Ne.symm same]
  | setOffset offset =>
    rw [act]
    split <;> rfl
  | _ => rfl

theorem offset_act : (s.act a).2.viewer.offset = a.accepted?.getD s.viewer.offset := by
  cases a with
  | setOffset offset =>
    by_cases fits : offset.toNat ≤ 64
    · simp [act_accepted s fits, Action.accepted?, fits]
    · simp [act_rejected s (Nat.lt_of_not_le fits), Action.accepted?, fits]
  | _ => rfl

/-- A room is put on screen as it stands. -/
theorem active_act : (s.act a).2.viewer.active =
    match a.activated? with
    | some room => some (s.rooms room)
    | none => s.viewer.active := by
  cases a with
  | setOffset offset =>
    by_cases fits : offset.toNat ≤ 64
    · rw [act_accepted s fits]
      rfl
    · rw [act_rejected s (Nat.lt_of_not_le fits)]
      rfl
  | _ => rfl

theorem register_act : (s.act a).2.register =
    match a.activated? with
    | some room => s.register.send (s.rooms room).photo.palette.toBytes
    | none => s.register := by
  cases a with
  | setOffset offset =>
    rw [act]
    split <;> rfl
  | _ => rfl

/-- Lines and windows change nothing. -/
theorem act_reads (reads : a.reads) : (s.act a).2 = s := by
  cases a with
  | fill course x y buffer => rfl
  | window x y width height order => rfl
  | _ => cases reads

end Steps

section Run

variable {rooms : ι → Room} {history : List (Action ι)}

/-- One more action changes the state as it changes what the history says. -/
theorem Follows.act {s : Session ι} (follows : s.Follows rooms history) (a : Action ι) :
    (s.act a).2.Follows rooms (history ++ [a]) where
  room_eq := by
    intro room
    rw [rooms_act, follows.room_eq, Room.after_append]
  offset_le := by
    rw [offset_act]
    cases offered : a.accepted? with
    | none => exact follows.offset_le
    | some offset => exact Action.accepted?_le offered
  offset_eq := by
    rw [offset_act, follows.offset_eq, List.filterMap_append]
    cases offered : a.accepted? <;> simp [offered]
  writes_eq := by
    rw [register_act, List.filterMap_append, List.length_append, ← follows.writes_eq]
    cases activated : a.activated? <;> simp [activated, Register.send]
  active_iff := by
    rw [active_act, register_act]
    cases a.activated? with
    | none => exact follows.active_iff
    | some room => simp [Register.send]
  shown := by
    rw [active_act, register_act]
    cases activated : a.activated? with
    | none =>
      -- The last activation stays the last one; the action is one of those that came later.
      intro written
      obtain ⟨before, room, later, split, quiet, shown⟩ := follows.shown written
      refine ⟨before, room, later ++ [a], by simp [split], ?_, shown⟩
      intro b member
      rcases List.mem_append.mp member with earlier | last
      · exact quiet b earlier
      · exact List.mem_singleton.mp last ▸ activated
    | some room =>
      intro _
      obtain rfl := Action.eq_activate activated
      have sent : (rooms room).photo.palette.SentAs (s.rooms room).photo.palette.toBytes := by
        rw [follows.room_eq]
        exact Palette.sentAs_toBytes _
      exact ⟨history, room, [], rfl, by simp, congrArg some (follows.room_eq room), _, rfl, sent⟩

theorem start_follows (rooms : ι → Room) : (start rooms).Follows rooms [] where
  room_eq := by simp [start, Room.after]
  offset_le := Nat.zero_le _
  offset_eq := rfl
  writes_eq := rfl
  active_iff := by simp [start, Viewer.initial, Register.untouched]
  shown := by simp [start, Register.untouched]

/-- Whatever else is done, the state goes on being what the history says. -/
theorem Follows.run {s : Session ι} (follows : s.Follows rooms history)
    (further : List (Action ι)) : (s.run further).Follows rooms (history ++ further) := by
  induction further generalizing s history with
  | nil => simpa [Session.run] using follows
  | cons a rest ih =>
    have next := ih (follows.act a)
    rwa [List.append_assoc, List.singleton_append] at next

end Run

/-- In every session the offset is the last one that was accepted, the display was sent a palette for
every activation, and the room on screen and the palette it was sent last are those of the last
activation. An offset that is refused, a line and a window change nothing, and a line shows the active
room at the offset, whatever its buffer held and whatever was done before. -/
theorem session_follows_history (rooms : ι → Room) (history : List (Action ι)) :
    let s := (start rooms).run history
    s.Follows rooms history ∧
    (∀ offset, offset.toNat ≤ 64 → (s.act (.setOffset offset)).1 = .ok .done) ∧
    (∀ offset, 64 < offset.toNat →
      s.act (.setOffset offset) = (.error (.paletteOffset offset.toNat), s)) ∧
    (∀ a, a.reads → (s.act a).2 = s) ∧
    ∀ course x y buffer, (s.act (.fill course x y buffer)).1 =
      .ok (.line (Viewer.line ⟨s.viewer.active, s.viewer.offset⟩ course x y buffer.size)) := by
  intro s
  refine ⟨(start_follows rooms).run history, ?_, ?_, ?_, ?_⟩
  · intro offset fits
    rw [s.act_accepted fits]
  · intro offset large
    exact s.act_rejected large
  · intro a reads
    exact s.act_reads a reads
  · intro course x y buffer
    rw [act, Viewer.fill_eq_line]

end Session
end Roomscape
