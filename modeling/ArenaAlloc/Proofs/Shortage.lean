import ArenaAlloc.Script.Handle

/-!
# When memory is short

What an operation comes to can depend on how much memory is left, and nowhere else on the supply.
The log says when it did: a request that was refused although a supply without a limit would have
granted it is a *shortage* (`Event.isShortage`). `Outcome.Agrees` compares a run with one on a
supply without a limit: unless the first logged a shortage, the two answer and log the same and
leave states that correspond. It is proved here of the operations of an arena, one after another,
and of the calls on an arena that a script holds (`HandleStep.agrees_run`).

## Why the log

Whether a request was refused for lack of memory is not in the answer of every interface, and a
request can be refused for other reasons with the same error: one that no supply could grant. So
shortage is defined by comparison: the supply refused what an unlimited one grants. The event
carries the length that was asked for, which is all that the comparison needs.

`Agrees` is an implication with the log of the first run as its premise. Composition is the point of
it: the log of a composed run is the two logs one after the other, so a premise on the whole gives a
premise on each part (`Agrees.andThen`). With that, the proofs for the operations follow their
definitions, branch by branch, and only `agrees_grow` looks at a supply.
-/

namespace ArenaAlloc

/-- Memory was refused that a supply without a limit would have granted. -/
def Event.isShortage : Event → Bool
  | .growthFailed _ _ (.outOfMemory n) | .creationFailed (.outOfMemory n) =>
    Supply.unlimited.grants n
  | _ => false

/-- Nothing in a log tells of a shortage. -/
def Ample (events : List Event) : Prop := ∀ e ∈ events, e.isShortage = false

instance (events : List Event) : Decidable (Ample events) :=
  inferInstanceAs (Decidable (∀ e ∈ events, e.isShortage = false))

/-- A log is ample if its parts are. -/
theorem ample_append {es fs : List Event} : Ample (es ++ fs) ↔ Ample es ∧ Ample fs :=
  List.forall_mem_append

/-! ## Two runs of an operation

The relation `R` says how the states correspond, and the second run is on the right. Answers and
logs are equal. -/

namespace Outcome

variable {σ σ' τ τ' ρ κ α : Type} {R : σ → σ' → Prop} {S : τ → τ' → Prop}

/-- Unless the first run met a shortage, the second one answers and logs the same, and their states
correspond. -/
def Agrees (R : σ → σ' → Prop) (o : Outcome σ ρ) (o' : Outcome σ' ρ) : Prop :=
  Ample o.events → o'.result = o.result ∧ o'.events = o.events ∧ R o.state o'.state

/-- Pairs with the same first part. -/
def Along (R : σ → σ' → Prop) (x : α × σ) (y : α × σ') : Prop := y.1 = x.1 ∧ R x.2 y.2

namespace Agrees

variable {o : Outcome σ ρ} {o' : Outcome σ' ρ}

theorem pure {r : ρ} {es : List Event} {x : σ} {y : σ'} (h : R x y) :
    Agrees R ⟨r, x, es⟩ ⟨r, y, es⟩ := fun _ => ⟨rfl, rfl, h⟩

/-- Nothing is said of a run that met a shortage. -/
theorem of_shortage {e : Event} (he : e ∈ o.events) (h : e.isShortage = true) : Agrees R o o' := by
  intro hample
  rw [hample e he] at h
  cases h

/-- Answers may be translated. -/
theorem map (h : Agrees R o o') (f : ρ → κ) : Agrees R (o.map f) (o'.map f) := by
  intro hample
  obtain ⟨hresult, hevents, hstate⟩ := h hample
  exact ⟨congrArg f hresult, hevents, hstate⟩

/-- States may be translated, if what corresponds still does. -/
theorem mapState (h : Agrees R o o') {f : σ → τ} {g : σ' → τ'}
    (hfg : ∀ x y, R x y → S (f x) (g y)) :
    Agrees S (o.mapState f) (o'.mapState g) := by
  intro hample
  obtain ⟨hresult, hevents, hstate⟩ := h hample
  exact ⟨hresult, hevents, hfg _ _ hstate⟩

/-- Runs are composed, as long as what comes next agrees on states that correspond. -/
theorem andThen (h : Agrees R o o') {next : ρ → σ → Outcome τ κ} {next' : ρ → σ' → Outcome τ' κ}
    (hnext : ∀ r x y, R x y → Agrees S (next r x) (next' r y)) :
    Agrees S (o.andThen next) (o'.andThen next') := by
  intro hample
  obtain ⟨hfirst, hlast⟩ := ample_append.1 hample
  obtain ⟨hresult, hevents, hstate⟩ := h hfirst
  obtain ⟨hresult', hevents', hstate'⟩ := hnext _ _ _ hstate hlast
  refine ⟨?_, ?_, ?_⟩
  · rw [result_andThen, result_andThen, hresult]
    exact hresult'
  · rw [events_andThen, events_andThen, hevents, hresult, hevents']
  · rw [state_andThen, state_andThen, hresult]
    exact hstate'

end Agrees

end Outcome

/-! ## Requests for a chunk

The one place where a supply is asked: its answer is yes, no for a reason that any supply has, or no
for lack of memory. -/

/-- What is compared with a supply: any one without a limit that has the same bytes in its chunks.
-/
structure Supply.Unbounded (s s' : Supply) : Prop where
  limit : s'.limit = none
  contents : s'.contents = s.contents

open Outcome (Agrees Along)

variable {s s' : Supply}

/-- A supply without a limit does what another one does, unless that one is short. -/
theorem Supply.obtain_unbounded (h : s.Unbounded s') (n : Nat) :
    (∃ t t', s.obtain n = .ok t ∧ s'.obtain n = .ok t' ∧ t.Unbounded t') ∨
      (∃ e, s.obtain n = .error e ∧ s'.obtain n = .error e) ∨
      s.obtain n = .error (.outOfMemory n) ∧ Supply.unlimited.grants n = true := by
  have hgrants : s'.grants n = Supply.unlimited.grants n := by
    simp only [grants, h.limit, unlimited]
  unfold obtain
  by_cases hn : n = 0
  · simp only [hn, if_true]
    exact .inr (.inl ⟨_, rfl, rfl⟩)
  · simp only [hn, if_false]
    rw [hgrants]
    -- What a limited supply grants an unlimited one grants too.
    cases hs : s.grants n with
    | true =>
      have hfits : Supply.unlimited.grants n = true := by
        simp only [grants, unlimited, Bool.and_true, Bool.and_eq_true] at hs ⊢
        exact hs.1
      rw [hfits]
      exact .inl ⟨_, _, rfl, rfl, ⟨h.limit, h.contents⟩⟩
    | false =>
      cases hu : Supply.unlimited.grants n with
      | true => exact .inr (.inr ⟨rfl, rfl⟩)
      | false => exact .inr (.inl ⟨_, rfl, rfl⟩)

namespace Chunks

theorem agrees_grow (c : Chunks) (h : s.Unbounded s') (total : Nat) :
    Agrees (Along Supply.Unbounded) (c.grow s total) (c.grow s' total) := by
  unfold grow
  split
  · exact .pure ⟨rfl, h⟩
  · rename_i length _
    split
    · exact .pure ⟨rfl, h⟩
    · split
      · exact .pure ⟨rfl, h⟩
      · -- Refused for lack of memory, the length is in the log.
        rcases Supply.obtain_unbounded (s := s) h length with
          ⟨t, t', ht, ht', hpair⟩ | ⟨e, he, he'⟩ | ⟨hshort, hgrants⟩
        · rw [ht, ht']
          exact .pure ⟨rfl, hpair⟩
        · rw [he, he']
          exact .pure ⟨rfl, h⟩
        · rw [hshort]
          exact .of_shortage List.mem_cons_self hgrants

theorem agrees_carve (c : Chunks) (h : s.Unbounded s') (size : Nat) :
    Agrees (Along Supply.Unbounded) (c.carve s size) (c.carve s' size) := by
  unfold carve
  split
  · exact .pure ⟨rfl, h⟩
  · split
    · exact .pure ⟨rfl, h⟩
    · refine (c.agrees_grow h _).andThen ?_
      rintro (e | index) ⟨c, t⟩ ⟨_, t'⟩ ⟨rfl, hpair⟩
      · exact .pure ⟨rfl, hpair⟩
      · dsimp only
        split
        · exact .pure ⟨rfl, hpair⟩
        · exact .pure ⟨rfl, hpair⟩

end Chunks

namespace Arena

/-- The same of the creation of an arena, which logs nothing when it is refused. -/
theorem create_unbounded (config : Config) (h : s.Unbounded s') :
    (∃ r es t t', create config s = ⟨r, t, es⟩ ∧ create config s' = ⟨r, t', es⟩ ∧ t.Unbounded t') ∨
      ∃ n, create config s = ⟨.error (.outOfMemory n), s, []⟩ ∧
        Supply.unlimited.grants n = true := by
  unfold create Chunks.create
  cases config.validate with
  | error e => exact .inl ⟨_, _, _, _, rfl, rfl, h⟩
  | ok _ =>
    cases alignUp config.initialCapacity with
    | none => exact .inl ⟨_, _, _, _, rfl, rfl, h⟩
    | some length =>
      rcases Supply.obtain_unbounded (s := s) h length with
        ⟨t, t', ht, ht', hpair⟩ | ⟨e, he, he'⟩ | ⟨hshort, hgrants⟩
      · simp only [ht, ht', h.contents]
        exact .inl ⟨_, _, _, _, rfl, rfl, hpair⟩
      · simp only [he, he']
        exact .inl ⟨_, _, _, _, rfl, rfl, h⟩
      · simp only [hshort]
        exact .inr ⟨length, rfl, hgrants⟩

/-! ## Operations of an arena

The proofs have the shape of the definitions: where an operation branches, both runs take the same
branch, as they are on the same arena. -/

variable (a : Arena)

theorem agrees_takeBlock (h : s.Unbounded s') (size : Nat) :
    Agrees (Along Supply.Unbounded) (a.takeBlock s size) (a.takeBlock s' size) := by
  unfold takeBlock
  split
  · exact .pure ⟨rfl, h⟩
  · split
    · exact .pure ⟨rfl, h⟩
    · refine (a.chunks.agrees_carve h _).andThen ?_
      rintro (e | b) ⟨c, t⟩ ⟨_, t'⟩ ⟨rfl, hpair⟩
      · exact .pure ⟨rfl, hpair⟩
      · exact .pure ⟨rfl, hpair⟩

theorem agrees_allocate (h : s.Unbounded s') (size : Nat) :
    Agrees (Along Supply.Unbounded) (a.allocate s size) (a.allocate s' size) :=
  (a.agrees_takeBlock h size).map _

theorem agrees_zeroAllocate (h : s.Unbounded s') (count size : Nat) :
    Agrees (Along Supply.Unbounded) (a.zeroAllocate s count size)
      (a.zeroAllocate s' count size) := by
  unfold zeroAllocate
  split
  · exact .pure ⟨rfl, h⟩
  · refine (a.agrees_takeBlock h _).andThen ?_
    rintro (e | b) ⟨a, t⟩ ⟨_, t'⟩ ⟨rfl, hpair⟩
    · exact .pure ⟨rfl, hpair⟩
    · exact .pure ⟨rfl, hpair⟩

theorem agrees_reallocate (h : s.Unbounded s') (p : Option Address) (size : Nat) :
    Agrees (Along Supply.Unbounded) (a.reallocate s p size) (a.reallocate s' p size) := by
  unfold reallocate
  split
  · exact a.agrees_allocate h size
  · split
    · exact .pure ⟨rfl, h⟩
    · dsimp only
      split
      · exact .pure ⟨rfl, h⟩
      · refine (a.agrees_takeBlock h _).andThen ?_
        rintro (e | target) ⟨a, t⟩ ⟨_, t'⟩ ⟨rfl, hpair⟩
        · exact .pure ⟨rfl, hpair⟩
        · exact .pure ⟨rfl, hpair⟩

end Arena

/-! ## Calls and steps on an arena

`FrontEnd.Agrees` is to `Call.run` what `FrontEnd.Does` is: five facts about a front end, and from
them one about every call. -/

namespace Script

/-- Every call on the front end agrees with the same call on another state. -/
structure FrontEnd.Agrees {σ : Type} (front : FrontEnd σ) (R : σ → σ → Prop) (st st' : σ) :
    Prop where
  allocate : ∀ size, Outcome.Agrees R (front.allocate st size) (front.allocate st' size)
  zeroAllocate : ∀ count size,
    Outcome.Agrees R (front.zeroAllocate st count size) (front.zeroAllocate st' count size)
  reallocate : ∀ p size,
    Outcome.Agrees R (front.reallocate st p size) (front.reallocate st' p size)
  free : ∀ p, Outcome.Agrees R (front.free st p) (front.free st' p)
  reset : Outcome.Agrees R (front.reset st) (front.reset st')

/-- States that correspond, with the same names. -/
def Naming {σ τ : Type} (R : σ → τ → Prop) (x : σ × Names) (y : τ × Names) : Prop :=
  R x.1 y.1 ∧ y.2 = x.2

theorem Call.agrees_run {σ : Type} {front : FrontEnd σ} {R : σ → σ → Prop} {st st' : σ}
    (h : front.Agrees R st st') (c : Call) (p : Option Address) (names : Names) :
    Outcome.Agrees (Naming R) (c.run front p names st) (c.run front p names st') := by
  cases c with
  | allocate size into => exact (h.allocate size).andThen fun r x y hxy => .pure ⟨hxy, rfl⟩
  | zeroAllocate count size into =>
    exact (h.zeroAllocate count size).andThen fun r x y hxy => .pure ⟨hxy, rfl⟩
  | reallocate size into => exact (h.reallocate p size).andThen fun r x y hxy => .pure ⟨hxy, rfl⟩
  | free => exact (h.free p).andThen fun r x y hxy => .pure ⟨hxy, rfl⟩
  | reset => exact h.reset.andThen fun r x y hxy => .pure ⟨hxy, rfl⟩

variable (a : Arena)

theorem agrees_reporting (h : s.Unbounded s') :
    FrontEnd.reporting.Agrees (Along Supply.Unbounded) (a, s) (a, s') where
  allocate size := (a.agrees_allocate h size).map _
  zeroAllocate count size := (a.agrees_zeroAllocate h count size).map _
  reallocate p size := (a.agrees_reallocate h p size).map _
  free _ := .pure ⟨rfl, h⟩
  reset := .pure ⟨rfl, h⟩

theorem agrees_optional (h : s.Unbounded s') :
    FrontEnd.optional.Agrees (Along Supply.Unbounded) (a, s) (a, s') where
  allocate size := ((a.agrees_allocate h size).map _).map _
  zeroAllocate count size := ((a.agrees_zeroAllocate h count size).map _).map _
  reallocate p size := ((a.agrees_reallocate h p size).map _).map _
  free _ := .pure ⟨rfl, h⟩
  reset := .pure ⟨rfl, h⟩

theorem Names.agrees_withPointer {σ τ : Type} {R : σ → τ → Prop} (names : Names)
    (name : Option String) {st : σ} {st' : τ} (h : R st st')
    {step : Option Address → Outcome σ Answer} {step' : Option Address → Outcome τ Answer}
    (hstep : ∀ p, Outcome.Agrees R (step p) (step' p)) :
    Outcome.Agrees R (names.withPointer name st step) (names.withPointer name st' step') := by
  unfold withPointer
  split
  · exact hstep none
  · split
    · exact hstep _
    · exact .pure h

theorem HandleStep.agrees_run (step : HandleStep) (names : Names) (h : s.Unbounded s') :
    Outcome.Agrees (Naming (Along Supply.Unbounded)) (step.run names a s)
      (step.run names a s') := by
  have hsame : Naming (Along Supply.Unbounded) ((a, s), names) ((a, s'), names) := ⟨⟨rfl, h⟩, rfl⟩
  refine names.agrees_withPointer step.pointer hsame fun p => ?_
  cases step.action with
  | call reasons c =>
    cases reasons with
    | true => exact c.agrees_run (agrees_reporting a h) p names
    | false => exact c.agrees_run (agrees_optional a h) p names
  | owns place =>
    simp only [HandleAction.run]
    split
    · exact .pure hsame
    · exact .pure hsame
  | capacity => exact .pure hsame
  | stats => exact .pure hsame
  | describe => exact .pure hsame
  | access x => exact .pure ⟨⟨rfl, h⟩, rfl⟩

end Script

end ArenaAlloc
