import Roomscape.Host

/-! Runs of tasks on a system with a state. The system may answer as it likes and change as it likes;
what is said here of a task holds on every such system. -/
namespace Roomscape.Task

variable {σ α β : Type}

/-- How a task that is begun in a state ends, and the state it leaves. -/
def outcome (x : Task (StateM σ) α) (s : σ) : Except Fault α × σ := (ExceptT.run x).run s

section Steps

variable {x : Task (StateM σ) α} {f : α → Task (StateM σ) β} {s t : σ}

theorem outcome_pure (value : α) (s : σ) :
    (pure value : Task (StateM σ) α).outcome s = (.ok value, s) :=
  rfl

theorem outcome_throw (fault : Fault) (s : σ) :
    (throw fault : Task (StateM σ) α).outcome s = (.error fault, s) :=
  rfl

theorem outcome_lift (act : StateM σ α) (s : σ) :
    (liftM act : Task (StateM σ) α).outcome s = (.ok (act.run s).1, (act.run s).2) :=
  rfl

theorem outcome_ofExcept (result : Except Fault α) (s : σ) :
    (ofExcept result : Task (StateM σ) α).outcome s = (result, s) := by
  cases result <;> rfl

theorem outcome_bind_ok {value : α} (run : x.outcome s = (.ok value, t)) :
    (x >>= f).outcome s = (f value).outcome t := by
  change (ExceptT.run x).run s = _ at run
  change (ExceptT.bindCont f ((ExceptT.run x).run s).1).run ((ExceptT.run x).run s).2 = _
  rw [run]
  rfl

theorem outcome_bind_error {fault : Fault} (run : x.outcome s = (.error fault, t)) :
    (x >>= f).outcome s = (.error fault, t) := by
  change (ExceptT.run x).run s = _ at run
  change (ExceptT.bindCont f ((ExceptT.run x).run s).1).run ((ExceptT.run x).run s).2 = _
  rw [run]
  rfl

/-- Two tasks in turn end well only if both of them do. -/
theorem outcome_bind_eq_ok {value : β} (run : (x >>= f).outcome s = (.ok value, t)) :
    ∃ first u, x.outcome s = (.ok first, u) ∧ (f first).outcome u = (.ok value, t) := by
  match done : x.outcome s with
  | (.ok first, u) => exact ⟨first, u, rfl, (outcome_bind_ok done).symm.trans run⟩
  | (.error fault, u) => cases (outcome_bind_error done).symm.trans run

end Steps

/-- Whatever state the task is begun in, the faults it can end in are all of one kind. -/
def FailsOnly (kind : Fault → Prop) (x : Task (StateM σ) α) : Prop :=
  ∀ s fault t, x.outcome s = (.error fault, t) → kind fault

namespace FailsOnly

variable {kind : Fault → Prop} {x : Task (StateM σ) α} {f : α → Task (StateM σ) β}

theorem pure (value : α) : FailsOnly kind (Pure.pure value : Task (StateM σ) α) := by
  intro s fault t run
  cases (outcome_pure value s).symm.trans run

theorem lift (act : StateM σ α) : FailsOnly kind (liftM act : Task (StateM σ) α) := by
  intro s fault t run
  cases (outcome_lift act s).symm.trans run

theorem throw {fault : Fault} (allowed : kind fault) :
    FailsOnly kind (MonadExcept.throw fault : Task (StateM σ) α) := by
  intro s other t run
  cases (outcome_throw fault s).symm.trans run
  exact allowed

theorem ofExcept {result : Except Fault α} (allowed : ∀ fault, result = .error fault → kind fault) :
    FailsOnly kind (MonadExcept.ofExcept result : Task (StateM σ) α) := by
  intro s fault t run
  rw [outcome_ofExcept] at run
  exact allowed fault (congrArg Prod.fst run)

/-- The second task need only be looked at with what the first one can give. -/
theorem bind_of (first : x.FailsOnly kind)
    (next : ∀ value s t, x.outcome s = (.ok value, t) → (f value).FailsOnly kind) :
    (x >>= f).FailsOnly kind := by
  intro s fault t run
  match done : x.outcome s with
  | (.ok value, u) =>
    rw [outcome_bind_ok done] at run
    exact next value s u done u fault t run
  | (.error own, u) =>
    rw [outcome_bind_error done] at run
    cases run
    exact first s fault t done

theorem bind (first : x.FailsOnly kind) (next : ∀ value, (f value).FailsOnly kind) :
    (x >>= f).FailsOnly kind :=
  first.bind_of fun value _ _ _ => next value

theorem forM {items : List α} {act : α → Task (StateM σ) PUnit}
    (each : ∀ item ∈ items, (act item).FailsOnly kind) : (items.forM act).FailsOnly kind := by
  induction items with
  | nil => exact pure PUnit.unit
  | cons item rest ih =>
    exact (each item List.mem_cons_self).bind fun _ =>
      ih fun other member => each other (List.mem_cons_of_mem _ member)

end FailsOnly

/-- Begun in a state of one kind the task ends well with one value, in a state of another kind. -/
def Ends (before : σ → Prop) (x : Task (StateM σ) α) (value : α) (after : σ → Prop) : Prop :=
  ∀ s, before s → ∃ t, x.outcome s = (.ok value, t) ∧ after t

namespace Ends

variable {before between after : σ → Prop} {x : Task (StateM σ) α} {f : α → Task (StateM σ) β}

theorem pure (value : α) : Ends before (Pure.pure value) value before :=
  fun s now => ⟨s, outcome_pure value s, now⟩

theorem lift {act : StateM σ α} {value : α}
    (answers : ∀ s, before s → (act.run s).1 = value ∧ after (act.run s).2) :
    Ends before (liftM act) value after :=
  fun s now => ⟨_, Prod.ext (congrArg Except.ok (answers s now).1) rfl, (answers s now).2⟩

theorem lift_unit {act : StateM σ Unit} (leads : ∀ s, before s → after (act.run s).2) :
    Ends before (liftM act) () after :=
  .lift fun s now => ⟨rfl, leads s now⟩

theorem ofExcept {result : Except Fault α} {value : α} (done : result = .ok value) :
    Ends before (MonadExcept.ofExcept result) value before :=
  fun s now => ⟨s, (outcome_ofExcept result s).trans (done ▸ rfl), now⟩

/-- Behind a task that ends well, the next one goes on from the state that it leaves. -/
theorem leads {first : α} (begins : x.Ends before first after) {s : σ} (now : before s) :
    ∃ t, after t ∧ (x >>= f).outcome s = (f first).outcome t := by
  obtain ⟨t, run, later⟩ := begins s now
  exact ⟨t, later, outcome_bind_ok run⟩

theorem bind {first : α} {value : β} (begins : x.Ends before first between)
    (goes : (f first).Ends between value after) : (x >>= f).Ends before value after := by
  intro s now
  obtain ⟨t, run, half⟩ := begins s now
  obtain ⟨u, run', done⟩ := goes t half
  exact ⟨u, (outcome_bind_ok run).trans run', done⟩

theorem forM {items : List α} {act : α → Task (StateM σ) PUnit} {still : σ → Prop}
    (each : ∀ item, (act item).Ends still PUnit.unit still) :
    (items.forM act).Ends still PUnit.unit still := by
  induction items with
  | nil => exact pure PUnit.unit
  | cons item rest ih => exact (each item).bind ih

end Ends

/-- A task that is gone on with without a fault, to a value that depends on what it gave only. -/
theorem fst_outcome_bind {x : Task (StateM σ) α} {f : α → Task (StateM σ) β} {g : α → β}
    (quiet : ∀ value, (f value).Ends (fun _ => True) (g value) fun _ => True) (s : σ) :
    ((x >>= f).outcome s).1 = (x.outcome s).1.map g := by
  match done : x.outcome s with
  | (.ok value, t) =>
    obtain ⟨u, run, _⟩ := quiet value t trivial
    rw [outcome_bind_ok done, run]
    rfl
  | (.error fault, t) =>
    rw [outcome_bind_error done]
    rfl

section Keeps

variable {κ : Type} (view : σ → κ)

/-- Something that can be seen of the state is the same before the task and after it. -/
def Keeps (x : Task (StateM σ) α) : Prop := ∀ s, view (x.outcome s).2 = view s

namespace Keeps

variable {view} {x : Task (StateM σ) α} {f : α → Task (StateM σ) β}

theorem pure (value : α) : Keeps view (Pure.pure value : Task (StateM σ) α) := fun _ => rfl

theorem throw (fault : Fault) : Keeps view (MonadExcept.throw fault : Task (StateM σ) α) :=
  fun _ => rfl

theorem ofExcept (result : Except Fault α) :
    Keeps view (MonadExcept.ofExcept result : Task (StateM σ) α) := by
  intro s
  rw [outcome_ofExcept]

theorem lift {act : StateM σ α} (keeps : ∀ s, view (act.run s).2 = view s) :
    Keeps view (liftM act : Task (StateM σ) α) :=
  keeps

theorem bind (first : x.Keeps view) (next : ∀ value, (f value).Keeps view) :
    (x >>= f).Keeps view := by
  intro s
  have kept := first s
  match done : x.outcome s with
  | (.ok value, t) =>
    rw [done] at kept
    rw [outcome_bind_ok done, next value t]
    exact kept
  | (.error fault, t) =>
    rw [done] at kept
    rw [outcome_bind_error done]
    exact kept

theorem forM {items : List α} {act : α → Task (StateM σ) PUnit}
    (each : ∀ item, (act item).Keeps view) : (items.forM act).Keeps view := by
  induction items with
  | nil => exact pure PUnit.unit
  | cons item rest ih => exact (each item).bind fun _ => ih

theorem outcome_eq {result : Except Fault α} {s t : σ} (keeps : x.Keeps view)
    (run : x.outcome s = (result, t)) : view t = view s := by
  have kept := keeps s
  rwa [run] at kept

end Keeps

namespace FailsClean

variable {view} {kind : Fault → Prop} {x : Task (StateM σ) α} {f : α → Task (StateM σ) β}

end FailsClean
end Keeps

section Matches

/-- A task without a state ends at once. -/
theorem ends (y : Task Id α) : (∃ value, y = pure value) ∨ ∃ fault, y = throw fault :=
  match y with
  | .ok value => .inl ⟨value, rfl⟩
  | .error fault => .inr ⟨fault, rfl⟩

variable (still : σ → Prop)

/-- As long as the state is of one kind it stays so, and the task ends as another does that has no state
to work on. -/
def Matches (x : Task (StateM σ) α) (y : Task Id α) : Prop :=
  ∀ s, still s → (x.outcome s).1 = y.run ∧ still (x.outcome s).2

namespace Matches

variable {still} {x : Task (StateM σ) α} {y : Task Id α} {f : α → Task (StateM σ) β}
  {g : α → Task Id β}

theorem pure (value : α) : Matches still (Pure.pure value) (Pure.pure value) :=
  fun _ now => ⟨rfl, now⟩

theorem throw (fault : Fault) :
    Matches still (MonadExcept.throw fault : Task (StateM σ) α) (MonadExcept.throw fault) :=
  fun _ now => ⟨rfl, now⟩

theorem lift {act : StateM σ α} {answer : Id α}
    (answers : ∀ s, still s → (act.run s).1 = answer ∧ still (act.run s).2) :
    Matches still (liftM act : Task (StateM σ) α) (liftM answer) := by
  intro s now
  obtain ⟨same, kept⟩ := answers s now
  exact ⟨congrArg Except.ok same, kept⟩

theorem ends {value : α} (same : Matches still x y) (run : y.run = .ok value) :
    x.Ends still value still :=
  fun s now => ⟨_, Prod.ext ((same s now).1.trans run) rfl, (same s now).2⟩

theorem bind (first : Matches still x y) (next : ∀ value, Matches still (f value) (g value)) :
    Matches still (x >>= f) (y >>= g) := by
  intro s now
  obtain ⟨same, kept⟩ := first s now
  match done : x.outcome s with
  | (.ok value, t) =>
    rw [done] at same kept
    obtain rfl : Pure.pure value = y := same
    rw [outcome_bind_ok done, pure_bind]
    exact next value t kept
  | (.error fault, t) =>
    rw [done] at same kept
    obtain rfl : MonadExcept.throw fault = y := same
    rw [outcome_bind_error done]
    exact ⟨rfl, kept⟩

theorem forM {items : List α} {act : α → Task (StateM σ) PUnit} {act' : α → Task Id PUnit}
    (each : ∀ item, Matches still (act item) (act' item)) :
    Matches still (items.forM act) (items.forM act') := by
  induction items with
  | nil => exact pure PUnit.unit
  | cons item rest ih => exact (each item).bind fun _ => ih

theorem mapM {items : List α} (each : ∀ item, Matches still (f item) (g item)) :
    Matches still (items.mapM f) (items.mapM g) := by
  induction items with
  | nil => exact pure []
  | cons item rest ih =>
    rw [List.mapM_cons, List.mapM_cons]
    exact (each item).bind fun value => ih.bind fun values => pure (value :: values)

end Matches
end Matches
end Roomscape.Task

namespace Roomscape.Host

variable {σ κ α β : Type} {host : Host (StateM σ)} {view : σ → κ}

theorem run_bind (act : StateM σ α) (next : α → StateM σ β) (s : σ) :
    (act >>= next).run s = (next (act.run s).1).run (act.run s).2 :=
  rfl

theorem answer_keeps {act : StateM σ α} {next : α → StateM σ β}
    (first : ∀ s, view (act.run s).2 = view s)
    (second : ∀ value s, view ((next value).run s).2 = view s) (s : σ) :
    view ((act >>= next).run s).2 = view s :=
  (second _ _).trans (first s)

/-- What opening a file leaves as it is, running a decoder on one does. -/
theorem decode_keeps (opens : ∀ path s, view ((host.openFile path).run s).2 = view s)
    (path : UnixPath) (decoder : Decoder α) : (host.decode path decoder).Keeps view := by
  refine .bind (.lift (opens path)) fun opened => ?_
  match opened with
  | .error .absent => exact .throw _
  | .error .refused => exact .throw _
  | .ok source =>
    dsimp only
    split
    · exact .pure _
    · exact .throw _

theorem readText_keeps (opens : ∀ path s, view ((host.openFile path).run s).2 = view s)
    (path : UnixPath) (s : σ) : view ((host.readText path).run s).2 = view s := by
  refine answer_keeps (opens path) (fun opened s => ?_) s
  split
  · rfl
  · split
    · rfl
    · split <;> rfl

/-- A path is shown with nothing asked of the system but its working folder. -/
theorem displayPath_keeps (folder : ∀ s, view (host.workingFolder.run s).2 = view s)
    (path : UnixPath) (s : σ) : view ((host.displayPath path).run s).2 = view s := by
  refine answer_keeps folder (fun here s => ?_) s
  split <;> rfl

end Roomscape.Host
