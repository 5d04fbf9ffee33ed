import ArenaAlloc.Event

/-!
# Outcomes

An operation answers, leaves a new state, and logs events. `Outcome` is these three together, and
`andThen` runs a further operation on the state that the first one left, with the events of both in
order.

It is a record and not a monad with state, so that operations on different states can be put one
after another, and each part can be spoken of without running the rest. `andThen` appends what is
logged. The `simp` lemmas below compute the three parts of each combination, so a proof about an
operation only has to say which branch it takes.
-/

namespace ArenaAlloc

/-- What an operation answers, the state it leaves, and the events it logs. -/
structure Outcome (σ ρ : Type) where
  result : ρ
  state : σ
  events : List Event := []

namespace Outcome

variable {σ τ ρ κ : Type}

@[inline] def map (f : ρ → κ) (o : Outcome σ ρ) : Outcome σ κ :=
  ⟨f o.result, o.state, o.events⟩

@[inline] def mapState (f : σ → τ) (o : Outcome σ ρ) : Outcome τ ρ :=
  ⟨o.result, f o.state, o.events⟩

@[inline] def andThen (o : Outcome σ ρ) (next : ρ → σ → Outcome τ κ) : Outcome τ κ :=
  let o' := next o.result o.state
  ⟨o'.result, o'.state, o.events ++ o'.events⟩

@[simp] theorem result_map (f : ρ → κ) (o : Outcome σ ρ) : (o.map f).result = f o.result := rfl
@[simp] theorem state_map (f : ρ → κ) (o : Outcome σ ρ) : (o.map f).state = o.state := rfl
@[simp] theorem events_map (f : ρ → κ) (o : Outcome σ ρ) : (o.map f).events = o.events := rfl

@[simp] theorem result_mapState (f : σ → τ) (o : Outcome σ ρ) :
    (o.mapState f).result = o.result := rfl
@[simp] theorem state_mapState (f : σ → τ) (o : Outcome σ ρ) :
    (o.mapState f).state = f o.state := rfl
@[simp] theorem events_mapState (f : σ → τ) (o : Outcome σ ρ) :
    (o.mapState f).events = o.events := rfl

@[simp] theorem result_andThen (o : Outcome σ ρ) (next : ρ → σ → Outcome τ κ) :
    (o.andThen next).result = (next o.result o.state).result := rfl
@[simp] theorem state_andThen (o : Outcome σ ρ) (next : ρ → σ → Outcome τ κ) :
    (o.andThen next).state = (next o.result o.state).state := rfl
@[simp] theorem events_andThen (o : Outcome σ ρ) (next : ρ → σ → Outcome τ κ) :
    (o.andThen next).events = o.events ++ (next o.result o.state).events := rfl

end Outcome

end ArenaAlloc
