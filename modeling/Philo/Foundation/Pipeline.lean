import Philo.Foundation.Result

/-! A producer reads inputs one at a time and emits a list of outputs for each;
a consumer reads those outputs one at a time. Both may fail. This module gives
the run of each and the rules by which a producer's run is followed from step to
step, with no reference to what is produced. -/

namespace Philo

open Result

structure Producer (σ ι ω ε : Type _) where
  accept : σ → ι → Except ε (σ × List ω)
  finish : σ → Except ε (List ω)

structure Consumer (κ ω μ ε : Type _) where
  accept : κ → ω → Except ε κ
  finish : κ → Except ε μ

namespace Producer

variable {σ ι ω ε : Type _} (producer : Producer σ ι ω ε)

def run (state : σ) : List ι → Except ε (σ × List ω)
  | [] => .ok (state, [])
  | input :: rest => do
    let (next, emitted) ← producer.accept state input
    let (final, later) ← run next rest
    .ok (final, emitted ++ later)

def runToEnd (state : σ) (inputs : List ι) : Except ε (List ω) := do
  let (final, emitted) ← producer.run state inputs
  let last ← producer.finish final
  .ok (emitted ++ last)

theorem run_cons_eq_ok {state final : σ} {input : ι} {rest : List ι} {outputs : List ω} :
    producer.run state (input :: rest) = .ok (final, outputs) ↔
      ∃ next emitted later, producer.accept state input = .ok (next, emitted) ∧
        producer.run next rest = .ok (final, later) ∧ outputs = emitted ++ later := by
  constructor
  · intro accepted
    simp only [run, bind_eq_ok, Prod.exists] at accepted
    rcases accepted with ⟨next, emitted, step, final', later, tail, equal⟩
    cases equal
    exact ⟨next, emitted, later, step, tail, rfl⟩
  · rintro ⟨next, emitted, later, step, tail, rfl⟩
    simp [run, step, tail]

theorem runToEnd_nil_eq_ok {state : σ} {outputs : List ω} :
    producer.runToEnd state [] = .ok outputs ↔ producer.finish state = .ok outputs := by
  simp only [runToEnd, run, ok_bind, List.nil_append, bind_eq_ok, Except.ok.injEq, exists_eq_right]

theorem runToEnd_cons_eq_ok {state : σ} {input : ι} {rest : List ι} {outputs : List ω} :
    producer.runToEnd state (input :: rest) = .ok outputs ↔
      ∃ next emitted later, producer.accept state input = .ok (next, emitted) ∧
        producer.runToEnd next rest = .ok later ∧ outputs = emitted ++ later := by
  simp only [runToEnd, bind_eq_ok, Prod.exists, run_cons_eq_ok, Except.ok.injEq]
  constructor
  · rintro ⟨final, _, ⟨next, emitted, later, step, tail, rfl⟩, last, finished, rfl⟩
    exact ⟨next, emitted, later ++ last, step, ⟨final, later, tail, last, finished, rfl⟩,
      List.append_assoc ..⟩
  · rintro ⟨next, emitted, _, step, ⟨final, later, tail, last, finished, rfl⟩, rfl⟩
    exact ⟨final, _, ⟨next, emitted, later, step, tail, rfl⟩, last, finished, List.append_assoc ..⟩

inductive Takes : σ → List ι → σ → ι → Prop
  | first {state : σ} {input : ι} {rest : List ι} : Takes state (input :: rest) state input
  | afterwards {state next later : σ} {head input : ι} {rest : List ι} {emitted : List ω}
      (accepted : producer.accept state head = .ok (next, emitted))
      (takes : Takes next rest later input) : Takes state (head :: rest) later input

theorem Takes.mem {state later : σ} {input : ι} {inputs : List ι}
    (takes : producer.Takes state inputs later input) : input ∈ inputs := by
  induction takes with
  | first => exact List.mem_cons_self ..
  | afterwards _ _ induction => exact List.mem_cons_of_mem _ induction

theorem run_of_takes {state final later : σ} {input : ι} {inputs : List ι}
    {outputs : List ω} (takes : producer.Takes state inputs later input)
    (accepted : producer.run state inputs = .ok (final, outputs)) :
    ∃ earlier before next emitted rest after,
      producer.run state earlier = .ok (later, before) ∧
        producer.accept later input = .ok (next, emitted) ∧
          producer.run next rest = .ok (final, after) ∧
            outputs = before ++ (emitted ++ after) := by
  induction takes generalizing outputs with
  | first =>
    rcases producer.run_cons_eq_ok.mp accepted with ⟨next, emitted, after, step, tail, rfl⟩
    exact ⟨[], [], next, emitted, _, after, rfl, step, tail, rfl⟩
  | afterwards step _ induction =>
    rcases producer.run_cons_eq_ok.mp accepted with ⟨next, emitted, _, step', tail, rfl⟩
    cases step.symm.trans step'
    rcases induction tail with
      ⟨earlier, before, next', emitted', rest, after, reached, taken, ended, rfl⟩
    have longer := producer.run_cons_eq_ok.mpr ⟨_, _, _, step, reached, rfl⟩
    exact ⟨_, _, next', emitted', rest, after, longer, taken, ended, (List.append_assoc ..).symm⟩

/-- What relates the state to everything emitted so far, and is kept by each input that
is taken well, holds after a run that takes all of them well. -/
theorem run_history (TakenWell : σ → ι → Prop) (Holds : σ → List ω → Prop)
    (step : ∀ {state input next seen emitted}, TakenWell state input → Holds state seen →
      producer.accept state input = .ok (next, emitted) → Holds next (seen ++ emitted))
    {state final : σ} {inputs : List ι} {seen outputs : List ω}
    (takenWell : ∀ later input, producer.Takes state inputs later input →
      TakenWell later input)
    (holds : Holds state seen) (accepted : producer.run state inputs = .ok (final, outputs)) :
    Holds final (seen ++ outputs) := by
  induction inputs generalizing state seen outputs with
  | nil =>
    cases accepted
    rwa [List.append_nil]
  | cons input rest induction =>
    rcases producer.run_cons_eq_ok.mp accepted with ⟨next, emitted, later, first, tail, rfl⟩
    rw [← List.append_assoc]
    exact induction (fun _ _ takes => takenWell _ _ (.afterwards first takes))
      (step (takenWell state input .first) holds first) tail

def emitted (state : σ) : List ι → List ω
  | [] => (producer.finish state).toOption.getD []
  | input :: rest =>
    match producer.accept state input with
    | .ok (next, outputs) => outputs ++ emitted next rest
    | .error _ => []

theorem emitted_append {state reached : σ} {earlier : List ι} {seen : List ω}
    (accepted : producer.run state earlier = .ok (reached, seen)) (later : List ι) :
    producer.emitted state (earlier ++ later) = seen ++ producer.emitted reached later := by
  induction earlier generalizing state seen with
  | nil =>
    cases accepted
    rfl
  | cons input rest induction =>
    rcases producer.run_cons_eq_ok.mp accepted with ⟨next, outputs, after, first, tail, rfl⟩
    rw [List.cons_append, emitted, first, List.append_assoc]
    exact congrArg (outputs ++ ·) (induction tail)

/-- A property of what was emitted so far that the state accounts for holds of everything
that is emitted, whether the run fails or not. -/
theorem emitted_history (Holds : σ → List ω → Prop) (Good : List ω → Prop)
    (good : ∀ {state seen}, Holds state seen → Good seen)
    (step : ∀ {state input next seen outputs}, Holds state seen →
      producer.accept state input = .ok (next, outputs) → Holds next (seen ++ outputs))
    (last : ∀ {state seen outputs}, Holds state seen → producer.finish state = .ok outputs →
      Good (seen ++ outputs))
    {state : σ} {seen : List ω} (holds : Holds state seen) (inputs : List ι) :
    Good (seen ++ producer.emitted state inputs) := by
  induction inputs generalizing state seen with
  | nil =>
    cases finished : producer.finish state with
    | error =>
      simp only [emitted, finished, Except.toOption, Option.getD_none, List.append_nil]
      exact good holds
    | ok outputs =>
      simp only [emitted, finished, Except.toOption, Option.getD_some]
      exact last holds finished
  | cons input rest induction =>
    cases accepted : producer.accept state input with
    | error =>
      simp only [emitted, accepted, List.append_nil]
      exact good holds
    | ok reached =>
      simp only [emitted, accepted]
      rw [← List.append_assoc]
      exact induction (step holds accepted)

/-- What every accepted input preserves holds after a whole run. -/
theorem run_invariant (invariant : σ → Prop) (step : ∀ state input next emitted, invariant state →
      producer.accept state input = .ok (next, emitted) → invariant next)
    {state final : σ} {inputs : List ι} {outputs : List ω} (holds : invariant state)
    (accepted : producer.run state inputs = .ok (final, outputs)) : invariant final :=
  @run_history _ _ _ _ producer (fun _ _ => True) (fun state _ => invariant state)
    (fun _ holds first => step _ _ _ _ holds first) _ _ _ [] _ (fun _ _ _ => trivial) holds accepted

end Producer

namespace Consumer

variable {κ ω μ ε : Type _} (consumer : Consumer κ ω μ ε)

def acceptAll (state : κ) : List ω → Except ε κ
  | [] => .ok state
  | output :: rest => do
    let next ← consumer.accept state output
    acceptAll next rest

def collect (state : κ) (outputs : List ω) : Except ε μ := do
  let final ← consumer.acceptAll state outputs
  consumer.finish final

@[simp] theorem acceptAll_nil (state : κ) : consumer.acceptAll state [] = .ok state := rfl

@[simp] theorem acceptAll_cons (state : κ) (output : ω) (rest : List ω) :
    consumer.acceptAll state (output :: rest) =
      consumer.accept state output >>= fun next => consumer.acceptAll next rest := rfl

theorem acceptAll_append (state : κ) (first second : List ω) :
    consumer.acceptAll state (first ++ second) =
      consumer.acceptAll state first >>= fun next => consumer.acceptAll next second := by
  induction first generalizing state with
  | nil => rfl
  | cons output rest induction =>
    cases accepted : consumer.accept state output with
    | error error => simp [accepted]
    | ok next => simp [accepted, induction next]

/-- What relates the state to everything read so far, and is kept by each output that is
accepted, holds after all of them. -/
theorem acceptAll_history (Holds : List ω → κ → Prop)
    (step : ∀ {read state output next}, Holds read state →
      consumer.accept state output = .ok next → Holds (read ++ [output]) next)
    {read outputs : List ω} {state final : κ} (holds : Holds read state)
    (accepted : consumer.acceptAll state outputs = .ok final) :
    Holds (read ++ outputs) final := by
  induction outputs generalizing read state with
  | nil =>
    cases accepted
    rwa [List.append_nil]
  | cons output rest induction =>
    rw [acceptAll_cons, bind_eq_ok] at accepted
    rcases accepted with ⟨next, first, later⟩
    simpa using induction (step holds first) later

theorem collect_append_of_ok {state next : κ} {first : List ω}
    (accepted : consumer.acceptAll state first = .ok next) (second : List ω) :
    consumer.collect state (first ++ second) = consumer.collect next second := by
  simp [collect, acceptAll_append, accepted]

theorem not_succeeds_collect_append {state : κ} {first : List ω}
    (refused : ¬ Succeeds (consumer.acceptAll state first)) (second : List ω) :
    ¬ Succeeds (consumer.collect state (first ++ second)) := by
  rintro ⟨value, collected⟩
  simp only [collect, acceptAll_append, bind_eq_ok] at collected
  rcases collected with ⟨_, ⟨next, accepted, _⟩, _⟩
  exact refused ⟨next, accepted⟩

end Consumer

section Agreement

variable {σ κ ι ω μ ε ε' : Type _}
  (producer : Producer σ ι ω ε) (consumer : Consumer κ ω μ ε')

/-- What one accepted input does to a pair of related states: either the
consumer takes everything emitted and the pair stays related, with `Fits` passed
on to the remaining inputs, or the consumer refuses and `Fits` was false. -/
def StepAgrees (Related : σ → κ → Prop) (Fits : σ → κ → List ι → Prop) : Prop :=
  ∀ state collector input rest next emitted, Related state collector →
    producer.accept state input = .ok (next, emitted) →
      (∃ collected, consumer.acceptAll collector emitted = .ok collected ∧
        Related next collected ∧
          (Fits state collector (input :: rest) ↔ Fits next collected rest)) ∨
      (¬ Succeeds (consumer.acceptAll collector emitted) ∧
        ¬ Fits state collector (input :: rest))

/-- Once the inputs are exhausted, `Fits` says exactly that the consumer takes
the closing outputs and finishes. -/
def EndAgrees (Related : σ → κ → Prop) (Fits : σ → κ → List ι → Prop) : Prop :=
  ∀ state collector outputs, Related state collector →
    producer.finish state = .ok outputs →
      (Succeeds (consumer.collect collector outputs) ↔ Fits state collector [])

variable {producer consumer}

/-- The exact agreement rule: from related states, the consumer collects
everything a successful run emits if and only if the inputs fit. -/
theorem succeeds_collect_iff_fits {Related : σ → κ → Prop} {Fits : σ → κ → List ι → Prop}
    (step : StepAgrees producer consumer Related Fits)
    (last : EndAgrees producer consumer Related Fits)
    {state : σ} {collector : κ} {inputs : List ι} {outputs : List ω}
    (related : Related state collector)
    (produced : producer.runToEnd state inputs = .ok outputs) :
    Succeeds (consumer.collect collector outputs) ↔ Fits state collector inputs := by
  induction inputs generalizing state collector outputs with
  | nil => exact last _ _ _ related (producer.runToEnd_nil_eq_ok.mp produced)
  | cons input rest induction =>
    rcases producer.runToEnd_cons_eq_ok.mp produced with
      ⟨next, emitted, later, accepted, tail, rfl⟩
    rcases step state collector input rest next emitted related accepted with
      ⟨collected, taken, stillRelated, passedOn⟩ | ⟨refused, unfit⟩
    · rw [consumer.collect_append_of_ok taken, passedOn]
      exact induction stillRelated tail
    · exact iff_of_false (consumer.not_succeeds_collect_append refused later) unfit

end Agreement

end Philo
