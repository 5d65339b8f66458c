import Roomscape.Proofs.DecoderFaults
import Roomscape.Proofs.PaletteCommand
import Roomscape.Proofs.TaskRuns

/-! Pixel files on a system. What is loaded is what a reader makes of the stream that opening the file
gives; a fault of the reader is told of the file, and every way in which opening can fail has a fault of
its own. -/
namespace Roomscape

namespace Fault

/-- What becomes of a reader's fault when it is told of a file. A flaw of the data keeps its text, with
the path put before it, and its advice; a read that failed keeps what the system said of it. -/
structure ToldOf (path : UnixPath) (fault told : Fault) : Prop where
  malformed : fault.category = .malformed → told.category = .malformed ∧ told.help = fault.help ∧
    ∃ text, fault.message = "Malformed data: " ++ text ∧
      told.message = "Malformed data: " ++ (path.text ++ ": " ++ text)
  reading : fault.category = .stream → ∃ why, fault = .readFailed why ∧
    told = .file path (.readPixels why) ∧
    told.report = "IO error with " ++ (path.text ++ (": Failed to read: " ++ why))
  other : fault.category ≠ .malformed → fault.category ≠ .stream → told = fault

theorem message_malformed (flaw : Flaw) :
    (malformed none flaw).message = "Malformed data: " ++ flaw.text := by
  unfold message
  simp only [toString]

theorem message_malformed_file (path : UnixPath) (flaw : Flaw) :
    (malformed (some path) flaw).message =
      "Malformed data: " ++ (path.text ++ ": " ++ flaw.text) := by
  unfold message
  simp only [toString, String.append_assoc]

theorem report_readPixels (path : UnixPath) (why : String) :
    (file path (.readPixels why)).report =
      "IO error with " ++ (path.text ++ (": Failed to read: " ++ why)) := by
  have parts : ": Failed to read: " = ": " ++ ("Failed to read" ++ ": ") := rfl
  unfold report message
  simp only [toString, FileAction.text, parts, String.append_assoc]

theorem OfStream.toldOf {fault : Fault} (ofStream : fault.OfStream) (path : UnixPath) :
    fault.ToldOf path (fault.inFile path) := by
  cases ofStream with
  | @malformed flaw _ =>
    refine ⟨fun _ => ⟨rfl, rfl, flaw.text, ?_, ?_⟩, by simp [category], by simp [category]⟩
    · exact message_malformed flaw
    · exact message_malformed_file path flaw
  | readFailed why =>
    exact ⟨by simp [category], fun _ => ⟨why, rfl, rfl, report_readPixels path why⟩, by simp [category]⟩
  | exhausted shortage => exact ⟨by simp [category], by simp [category], fun _ _ => rfl⟩

/-- A fault told of a file is never one of opening it. -/
theorem OfStream.inFile_ne {fault : Fault} (ofStream : fault.OfStream) (path other : UnixPath) :
    fault.inFile path ≠ .notFound other ∧ fault.inFile path ≠ .file other .openFile := by
  cases ofStream <;> simp [inFile]

end Fault

namespace Host

variable {σ α β : Type}

/-- A loader answers as a reader does of the stream that opening gave, `value` being the part of the
reader's result that is kept. -/
structure Answers (path : UnixPath) (read : Decoder β) (value : β → α)
    (opened : Except OpenFailure Source) (answer : Except Fault α) : Prop where
  absent : ∀ other, answer = .error (.notFound other) ↔ other = path ∧ opened = .error .absent
  refused : ∀ other, answer = .error (.file other .openFile) ↔ other = path ∧ opened = .error .refused
  loaded : ∀ source result rest, opened = .ok source → read source = .ok result rest →
    answer = .ok (value result)
  failed : ∀ source fault rest, opened = .ok source → read source = .error fault rest →
    ∃ told, answer = .error told ∧ fault.ToldOf path told

variable {host : Host (StateM σ)} {path : UnixPath} {read : Decoder β} {s : σ}

/-- What a decoder run on a file answers, by what opening the file gave. -/
def answer (path : UnixPath) (read : Decoder β) : Except OpenFailure Source → Except Fault β
  | .error .absent => .error (.notFound path)
  | .error .refused => .error (.file path .openFile)
  | .ok source =>
    match read source with
    | .ok result _ => .ok result
    | .error fault _ => .error (fault.inFile path)

theorem fst_outcome_decode (host : Host (StateM σ)) (path : UnixPath) (read : Decoder β) (s : σ) :
    ((host.decode path read).outcome s).1 = answer path read ((host.openFile path).run s).1 := by
  unfold decode
  rw [Task.outcome_bind_ok (Task.outcome_lift _ _)]
  cases ((host.openFile path).run s).1 with
  | error why => cases why <;> rfl
  | ok source =>
    have run : read.run source = read source := rfl
    simp only [answer, run]
    cases read source <;> rfl

theorem answers_answer (path : UnixPath) (fails : read.FailsOnly Fault.OfStream) (value : β → α)
    (opened : Except OpenFailure Source) :
    Answers path read value opened ((answer path read opened).map value) := by
  cases opened with
  | error why =>
    cases why <;> constructor <;> simp [answer, Except.map, eq_comm]
  | ok source =>
    cases ran : read source with
    | ok result rest =>
      refine ⟨by simp [answer, ran, Except.map], by simp [answer, ran, Except.map], ?_, ?_⟩
      · rintro _ _ _ ⟨⟩ again
        cases ran.symm.trans again
        simp [answer, ran, Except.map]
      · rintro _ _ _ ⟨⟩ again
        cases ran.symm.trans again
    | error fault rest =>
      have ofStream := fails source fault rest ran
      have apart := ofStream.inFile_ne path
      refine ⟨by simp [answer, ran, Except.map, apart], by simp [answer, ran, Except.map, apart], ?_, ?_⟩
      · rintro _ _ _ ⟨⟩ again
        cases ran.symm.trans again
      · rintro _ _ _ ⟨⟩ again
        cases ran.symm.trans again
        exact ⟨fault.inFile path, by simp [answer, ran, Except.map], ofStream.toldOf path⟩

/-- A decoder's file is answered for by the decoder. -/
theorem answers_decode (host : Host (StateM σ)) (path : UnixPath)
    (fails : read.FailsOnly Fault.OfStream) (s : σ) :
    Answers path read id ((host.openFile path).run s).1 ((host.decode path read).outcome s).1 := by
  have answers := answers_answer path fails id ((host.openFile path).run s).1
  rwa [Except.map_id, ← fst_outcome_decode] at answers

theorem answers_loadPhoto (options : LoadOptions) (s : σ) :
    Answers path (PixelFile.photo options) Prod.fst ((host.openFile path).run s).1
      ((host.loadPhoto path options).outcome s).1 := by
  have noted (notice : Notice) :
      Task.Ends (fun _ => True) (liftM (host.note notice)) () fun _ => True :=
    .lift_unit fun _ _ => trivial
  have kept : ((host.loadPhoto path options).outcome s).1 =
      ((host.decode path (PixelFile.photo options)).outcome s).1.map Prod.fst := by
    refine Task.fst_outcome_bind (fun (photo, notices) => ?_) s
    exact .bind (.forM noted) (.bind (noted _) (.pure photo))
  rw [kept, fst_outcome_decode]
  exact answers_answer path (PixelFile.photo_failsOnly options) Prod.fst _

theorem answers_loadImage (options : LoadOptions) (s : σ) :
    Answers path (PixelFile.sprite options) id ((host.openFile path).run s).1
      ((host.loadImage path options).outcome s).1 := by
  have kept : ((host.loadImage path options).outcome s).1 =
      ((host.decode path (PixelFile.sprite options)).outcome s).1.map id := by
    refine Task.fst_outcome_bind (fun image => ?_) s
    exact .bind (.lift_unit fun _ _ => trivial) (.pure image)
  rw [kept, fst_outcome_decode]
  exact answers_answer path (PixelFile.sprite_failsOnly options) id _

/-- Only what was read is loaded. -/
theorem Answers.read_of_loaded {value : β → α} {source : Source} {answer : Except Fault α} {result : α}
    (answers : Answers path read value (.ok source) answer) (loaded : answer = .ok result) :
    ∃ own rest, read source = .ok own rest ∧ result = value own := by
  cases ran : read source with
  | ok own rest =>
    have same := answers.loaded source own rest rfl ran
    exact ⟨own, rest, rfl, Except.ok.inj (loaded.symm.trans same)⟩
  | error fault rest =>
    obtain ⟨told, same, _⟩ := answers.failed source fault rest rfl ran
    cases loaded.symm.trans same

/-- A header was read, and gives this size. -/
def Sized (headed : Except Fault Header) (width height : Nat) : Prop :=
  ∃ h, headed = .ok h ∧ h.width.toNat = width ∧ h.height.toNat = height

section Header

variable {γ : Type} [Inhabited γ] {grid : β → Grid γ} {kind : PixelKind} {code : PixelCodec γ}
  {maxWidth maxHeight : UInt16} {source again rest : Source} {headed : Except Fault Header}

/-- The header of a file that was read is read again from the same bytes, and has the grid's size. -/
theorem sized_of_read (wraps : PixelFile.Wraps read grid kind code maxWidth maxHeight) {result : β}
    (run : read source = .ok result rest) (same : again.unread = source.unread)
    (front : Answers path PixelFile.header id (.ok again) headed) :
    Sized headed (grid result).width (grid result).height := by
  obtain ⟨h, u, header, width, height⟩ := wraps.header_of_ok same run
  exact ⟨h, front.loaded again h u rfl header, width.symm, height.symm⟩

end Header

/-- Every loader answers as its reader does of the stream in the file, and what cannot be opened is told
apart. Whatever a loader could load has a header of its size, now and as long as the file gives the same
bytes. -/
theorem loaders_follow_readers (host : Host (StateM σ)) (path : UnixPath) (options : LoadOptions)
    (s : σ) :
    let opened := ((host.openFile path).run s).1
    let photo := ((host.loadPhoto path options).outcome s).1
    let image := ((host.loadImage path options).outcome s).1
    let raw := ((host.loadRaw path options).outcome s).1
    (Answers path (PixelFile.photo options) Prod.fst opened photo ∧
      Answers path (PixelFile.sprite options) id opened image ∧
      Answers path (PixelFile.rawPhoto options) id opened raw ∧
      Answers path PixelFile.header id opened ((host.readHeader path).outcome s).1) ∧
    ∀ again source source', opened = .ok source →
      ((host.openFile path).run again).1 = .ok source' → source'.unread = source.unread →
      let headed := ((host.readHeader path).outcome again).1
      (∀ loaded, photo = .ok loaded → Sized headed loaded.width loaded.height) ∧
      (∀ loaded, image = .ok loaded → Sized headed loaded.width loaded.height) ∧
      ∀ loaded, raw = .ok loaded → Sized headed loaded.width loaded.height := by
  intro opened photo image raw
  have photos : Answers path _ _ opened photo := answers_loadPhoto options s
  have images : Answers path _ _ opened image := answers_loadImage options s
  have raws : Answers path _ _ opened raw :=
    answers_decode host path (PixelFile.rawPhoto_failsOnly options) s
  have front (t : σ) := answers_decode host path PixelFile.header_failsOnly t
  refine ⟨⟨photos, images, raws, front s⟩, ?_⟩
  intro again source source' first second same headed
  have front : Answers path PixelFile.header id (.ok source') headed := second ▸ front again
  rw [first] at photos images raws
  refine ⟨?_, ?_, ?_⟩
  · intro loaded done
    obtain ⟨⟨own, notices⟩, rest, run, rfl⟩ := photos.read_of_loaded done
    obtain ⟨raw, run, depicts⟩ := PixelFile.rawPhoto_of_photo run
    obtain ⟨width, height⟩ := depicts.header
    rw [Photo.width, Photo.height, ← width, ← height]
    exact sized_of_read (PixelFile.wrapsRawPhoto options) run same front
  · intro loaded done
    obtain ⟨own, rest, run, rfl⟩ := images.read_of_loaded done
    obtain ⟨width, height⟩ := loaded.pixels_fits
    rw [Sprite.width, Sprite.height, ← width, ← height]
    exact sized_of_read (PixelFile.wrapsSprite options) run same front
  · intro loaded done
    obtain ⟨own, rest, run, rfl⟩ := raws.read_of_loaded done
    exact sized_of_read (PixelFile.wrapsRawPhoto options) run same front

open Program (duskWorld loaded_dusk opened_dusk)
open Quantized (dusk)

/-- Limits under which no photo has a column. -/
def narrow : LoadOptions := ⟨0, 1024, 160, 100, .adaptive⟩

/-- One photo beside nothing else. Loaded under a limit it passes, it is refused, with advice. -/
theorem loaders_follow_readers_dusk :
    Sized ((World.host.readHeader ⟨"dusk"⟩).outcome duskWorld).1 3 1 ∧
    ((World.host.loadPhoto ⟨"dawn"⟩ .standard).outcome duskWorld).1 = .error (.notFound ⟨"dawn"⟩) ∧
    ∃ told, ((World.host.loadRaw ⟨"dusk"⟩ narrow).outcome duskWorld).1 = .error told ∧
      told.help = some "Check the file header or raise the limits in roomview.yaml" := by
  have missing : duskWorld.openFile ⟨"dawn"⟩ = .error .absent := by
    have usable : FileTree.Usable ⟨"dawn"⟩ := by decide
    have split : (UnixPath.mk "dawn").segments = ["dawn"] := by decide
    rw [World.openFile, FileTree.lookup_eq_follow usable, split]
    rfl
  have refused : PixelFile.rawPhoto narrow
      (Source.ofBytes [3, 0, 1, 0, 0x41, 0x08, 0xff, 0xff, 0x20, 0x00]) =
        .error (.malformed none (.oversize .photo 3 1 0 1024))
          ⟨[.bytes [0x41, 0x08, 0xff, 0xff, 0x20, 0x00]], 4⟩ := rfl
  obtain ⟨_, sized⟩ := loaders_follow_readers World.host ⟨"dusk"⟩ .standard duskWorld
  obtain ⟨_, _, headed⟩ := sized duskWorld _ _ opened_dusk opened_dusk rfl
  obtain ⟨⟨photos, _⟩, _⟩ := loaders_follow_readers World.host ⟨"dawn"⟩ .standard duskWorld
  obtain ⟨⟨_, _, raws, _⟩, _⟩ := loaders_follow_readers World.host ⟨"dusk"⟩ narrow duskWorld
  obtain ⟨told, answer, toldOf⟩ := raws.failed _ _ _ opened_dusk refused
  exact ⟨headed dusk (congrArg Prod.fst loaded_dusk), (photos.absent _).mpr ⟨rfl, missing⟩, told, answer,
    (toldOf.malformed rfl).2.1⟩

end Host
end Roomscape
