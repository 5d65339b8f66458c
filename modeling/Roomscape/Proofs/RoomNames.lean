import Mathlib.Data.List.TakeWhile
import Roomscape.Proofs.OctetPaths
import Roomscape.Proofs.RenderedFiles

/-! What rooms are called. A room has the name that its manifest gives. Where that gives none it is called
after the manifest's file, by what stands before the first dot; so the one way to leave a room without a
name is a file whose name begins with a dot. -/
namespace Roomscape

/-- A text up to its first dot. -/
def upToDot (file : String) : String := String.ofList (file.toList.takeWhile (· != '.'))

/-- `name` is what stands before the first dot of `file`, or all of it if there is none. -/
structure FrontOf (file name : String) : Prop where
  plain : '.' ∉ name.toList
  rest : file = name ∨ ∃ rest, file = name ++ "." ++ rest

theorem frontOf_upToDot (file : String) : FrontOf file (upToDot file) := by
  have whole : file.toList = (upToDot file).toList ++ file.toList.dropWhile (· != '.') := by
    rw [upToDot, String.toList_ofList, List.takeWhile_append_dropWhile]
  constructor
  · intro dot
    rw [upToDot, String.toList_ofList] at dot
    simpa using List.mem_takeWhile_imp dot
  · cases behind : file.toList.dropWhile (· != '.') with
    | nil => exact .inl (String.toList_inj.mp (by simpa [behind] using whole))
    | cons c rest =>
      have stop : c = '.' := by simpa [behind] using List.head?_dropWhile_not (· != '.') file.toList
      refine .inr ⟨String.ofList rest, String.toList_inj.mp ?_⟩
      simpa [behind, stop] using whole

theorem upToDot_eq_empty_iff {file : String} (some : file ≠ "") :
    upToDot file = "" ↔ ∃ rest, file = "." ++ rest := by
  constructor
  · intro empty
    rcases (frontOf_upToDot file).rest with whole | ⟨rest, split⟩
    · exact absurd (whole.trans empty) some
    · exact ⟨rest, by simpa [empty] using split⟩
  · rintro ⟨rest, rfl⟩
    simp [upToDot]

namespace Manifest

/-- The name of a room whose manifest gives none, from a path in octets. A file name that is no text is
not looked at. -/
def nameFromOctets (path : OctetPath) : String :=
  match path.fileName?.bind Octets.text? with
  | some file => upToDot file
  | none => "room"

theorem nameFromOctets_ofText (path : UnixPath) :
    nameFromOctets (.ofText path) = nameFromPath path := by
  rw [nameFromOctets, OctetPath.fileName?_ofText, nameFromPath]
  cases path.fileName? with
  | none => rfl
  | some file => simp [upToDot]

/-- The name of a manifest that is loaded from a path: the one it gives, or else one from the path. -/
def nameAt (m : Manifest) (path : OctetPath) : String :=
  if m.name.isEmpty then nameFromOctets path else m.name

theorem name_locate (m : Manifest) (path : UnixPath) :
    (m.locate path).name = m.nameAt (.ofText path) := by
  unfold locate nameAt
  rw [nameFromOctets_ofText]
  cases path.parent? <;> split <;> rfl

/-- What a room is called whose manifest says `own` and is loaded from a path. -/
structure NamedFor (own : Manifest) (path : OctetPath) (name : String) : Prop where
  given : own.name ≠ "" → name = own.name
  file : own.name = "" → ∀ file, path.fileName? = some (Octets.ofText file) → FrontOf file name
  noText : own.name = "" → (∀ file, path.fileName? ≠ some (Octets.ofText file)) → name = "room"
  nameless : name = "" ↔ own.name = "" ∧ ∃ rest, path.fileName? = some (Octets.ofText ("." ++ rest))

/-- A file name is that of a text, or it is not looked at. -/
theorem fileName?_cases (path : OctetPath) :
    (∃ file, file ≠ "" ∧ path.fileName? = some (Octets.ofText file) ∧
      nameFromOctets path = upToDot file) ∨
    (∀ file, path.fileName? ≠ some (Octets.ofText file)) ∧ nameFromOctets path = "room" := by
  cases read : path.fileName?.bind Octets.text? with
  | some file =>
    obtain ⟨octets, named, text⟩ := Option.bind_eq_some_iff.mp read
    rw [Octets.text?_eq_some_iff.mp text] at named
    refine .inl ⟨file, ?_, named, by rw [nameFromOctets, read]⟩
    rintro rfl
    exact path.fileName?_ne_nil named
  | none =>
    refine .inr ⟨?_, by rw [nameFromOctets, read]⟩
    intro file named
    simp [named] at read

theorem namedFor_nameAt (m : Manifest) (path : OctetPath) : m.NamedFor path (m.nameAt path) := by
  by_cases none : m.name = ""
  · have taken : m.nameAt path = nameFromOctets path := by simp [nameAt, none]
    rw [taken]
    rcases fileName?_cases path with ⟨file, some, named, front⟩ | ⟨noText, room⟩
    · have text (other : String) : path.fileName? = .some (Octets.ofText other) ↔ file = other := by
        simp [named, Octets.ofText_inj]
      refine ⟨by simp [none], ?_, ?_, ?_⟩
      · rintro _ other same
        rw [front, ← (text other).mp same]
        exact frontOf_upToDot file
      · intro _ noText
        exact absurd named (noText file)
      · simp [front, none, text, upToDot_eq_empty_iff some]
    · refine ⟨by simp [none], fun _ file named => absurd named (noText file), fun _ _ => room, ?_⟩
      simp [room, noText]
  · have kept : m.nameAt path = m.name := by simp [nameAt, none]
    refine ⟨fun _ => kept, fun empty => absurd empty none, fun empty => absurd empty none, ?_⟩
    simp [kept, none]

end Manifest

variable {σ : Type} {host : Host (StateM σ)} {path : UnixPath} {m : Manifest} {s t : σ}

theorem Host.loadManifest_eq_ok (run : (host.loadManifest path).outcome s = (.ok m, t)) :
    ∃ text own, ((host.readText path).run s).1 = .ok text ∧ Manifest.parse text = .ok own ∧
      m = own.locate path := by
  obtain ⟨answer, u, read, run⟩ := Task.outcome_bind_eq_ok run
  cases (Task.outcome_lift _ s).symm.trans read
  split at run
  · cases run
  · cases run
  · rename_i text read
    obtain ⟨own, v, parsed, run⟩ := Task.outcome_bind_eq_ok run
    cases run
    rw [Task.outcome_ofExcept] at parsed
    exact ⟨text, own, read, congrArg Prod.fst parsed, rfl⟩

/-- No picture can be saved under the ending alone. -/
theorem Program.name_of_render {w w' : World} {printer : Printer} {config : ViewConfig} {x y : Int32}
    {scale : Nat} {vertical : Bool}
    (run : (render World.host printer config path x y none scale vertical).outcome w = (.ok (), w')) :
    ∃ m, ((World.host.loadManifest path).outcome w).1 = .ok m ∧ m.name ≠ "" := by
  obtain ⟨_, m, room, _, _, _, format, _, _, _, describes, _, _, _, kind, _⟩ := render_saved printer run
  refine ⟨m, describes.loaded, fun none => ?_⟩
  rw [Option.getD_none, describes.name, none] at kind
  have unknown : PictureFormat.ofName? ⟨"" ++ ".png"⟩ = .none := by
    have plain : UnixPath.extension? ⟨"" ++ ".png"⟩ = .none := by decide
    rw [PictureFormat.ofName?, plain]
    rfl
  cases unknown.symm.trans kind

/-- A manifest is called what its text says, or after its file: by what stands before the first dot of the
file's name, or "room" if that is no text. On any system this is the name under which it is loaded, and
that of the room which is built from it. There is no name exactly if the text gives none and the file's
name begins with a dot; a room without a name is never rendered but to a path that is given. -/
theorem loaded_rooms_take_names (own : Manifest) (octets : OctetPath) {σ : Type}
    (host : Host (StateM σ)) (path : UnixPath) :
    own.NamedFor octets (own.nameAt octets) ∧
    (∀ s t m, (host.loadManifest path).outcome s = (.ok m, t) →
      (∃ text own, ((host.readText path).run s).1 = .ok text ∧ Manifest.parse text = .ok own ∧
        m.name = own.nameAt (.ofText path)) ∧
      ∀ options u room v, (host.buildRoom m options).outcome u = (.ok room, v) →
        room.name = m.name) ∧
    ∀ printer config x y scale vertical w w',
      (Program.render World.host printer config path x y none scale vertical).outcome w = (.ok (), w') →
        ∃ m, ((World.host.loadManifest path).outcome w).1 = .ok m ∧ m.name ≠ "" := by
  refine ⟨own.namedFor_nameAt octets, ?_, fun _ _ _ _ _ _ _ _ => Program.name_of_render⟩
  intro s t m loaded
  obtain ⟨text, own, read, parsed, rfl⟩ := Host.loadManifest_eq_ok loaded
  exact ⟨⟨text, own, read, parsed, own.name_locate path⟩, fun _ _ _ _ => Host.name_of_buildRoom⟩

namespace Program

/-- A world with a photo of one pixel, and a manifest in a file whose name begins with a dot. -/
def crypt : World :=
  ⟨(FileTree.bare.put ["p"] (.file [1, 0, 1, 0, 0x41, 0x08])).put [".yaml"] (.file unnamed), [],
    #[], #[], #[]⟩

/-- A manifest that gives no name, in a file with nothing before its dot, makes a room without one. -/
theorem hidden_manifest_names_no_room :
    ((World.host.loadManifest ⟨".yaml"⟩).outcome crypt).1 = .ok ⟨"", ⟨"p"⟩, []⟩ ∧
    (∃ room, ((World.host.buildRoom ⟨"", ⟨"p"⟩, []⟩ Host.annexOptions).outcome crypt).1 = .ok room ∧
      room.name = "") ∧
    ∀ printer config x y scale vertical w',
      (render World.host printer config ⟨".yaml"⟩ x y none scale vertical).outcome crypt ≠
        (.ok (), w') := by
  have opened : crypt.openFile ⟨".yaml"⟩ = .ok (.ofBytes unnamed) :=
    World.openFile_name (by decide) (by decide) (by decide) rfl rfl
  have read := World.readText_of_open opened unnamed_read
  have loaded : ((World.host.loadManifest ⟨".yaml"⟩).outcome crypt).1 = .ok ⟨"", ⟨"p"⟩, []⟩ :=
    (loadManifest_of_parse read unnamed_parsed).trans (congrArg Except.ok (by decide))
  refine ⟨loaded, ?_, ?_⟩
  · have opened : crypt.openFile ⟨"p"⟩ = .ok (.ofBytes [1, 0, 1, 0, 0x41, 0x08]) :=
      World.openFile_name (by decide) (by decide) (by decide) rfl rfl
    obtain ⟨photo, developed⟩ := Host.loadPhoto_annex opened
    refine ⟨⟨"", photo, []⟩, ?_, rfl⟩
    have serves := Host.host_serves crypt
    rw [(serves.matches_buildRoom Host.annexOptions _ _ ⟨rfl, rfl⟩).1, Host.buildRoom]
    change ((Host.frozen crypt.openFile).loadPhoto ⟨"p"⟩ Host.annexOptions >>= _).run = _
    rw [developed]
    rfl
  · intro printer config x y scale vertical w' run
    obtain ⟨m, again, named⟩ := name_of_render run
    cases loaded.symm.trans again
    exact named rfl

/-- A file name that is no text, a room that is named after its file, and one that is rendered. -/
theorem loaded_rooms_take_names_attic :
    (⟨"", ⟨"p"⟩, []⟩ : Manifest).nameAt ⟨[0xff, 0x2e, 0x79]⟩ = "room" ∧
    (∃ room t, (World.host.buildRoom ⟨"m", ⟨"p"⟩, []⟩ peephole.load).outcome (attic unnamed) =
      (.ok room, t) ∧ room.name = "m") ∧
    ∃ w', (render World.host ⟨false⟩ peephole ⟨"m"⟩ 0 0 none 1 false).outcome (attic unnamed) =
        (.ok (), w') ∧
      ∃ m, ((World.host.loadManifest ⟨"m"⟩).outcome (attic unnamed)).1 = .ok m ∧ m.name ≠ "" := by
  obtain ⟨named, loads, renders⟩ := loaded_rooms_take_names ⟨"", ⟨"p"⟩, []⟩ ⟨[0xff, 0x2e, 0x79]⟩
    World.host ⟨"m"⟩
  refine ⟨?_, ?_, ?_⟩
  · refine named.noText rfl fun file same => ?_
    have own : OctetPath.fileName? ⟨[0xff, 0x2e, 0x79]⟩ = some [0xff, 0x2e, 0x79] := by decide
    have noText : Octets.text? [0xff, 0x2e, 0x79] = none := by decide
    rw [own, Option.some_inj, ← Octets.text?_eq_some_iff, noText] at same
    cases same
  · obtain ⟨room, describes⟩ := describes_attic unnamed_loaded rfl rfl
    obtain ⟨_, called⟩ := loads (attic unnamed) _ _ (Prod.ext unnamed_loaded rfl)
    exact ⟨room, _, Prod.ext describes.built rfl, called _ _ _ _ (Prod.ext describes.built rfl)⟩
  · obtain ⟨w', run⟩ := render_unnamed
    exact ⟨w', run, renders _ _ _ _ _ _ _ _ run⟩

end Program
end Roomscape
