import Mathlib.Algebra.Ring.Nat
import Mathlib.Data.List.Basic
import Mathlib.Logic.Function.Basic

/-! Runs of partial step functions over event lists.
A refused event ends a run, so every choice a system can make is part of its events.
-/

namespace TransitionSystem

variable {State Event : Type*} (step : State → Event → Option State)

/-- The state after the events, or nothing when one of them is refused on the way. -/
def run : State → List Event → Option State
  | state, [] => some state
  | state, event :: rest => (step state event).bind (fun next => run next rest)

/-- Each step that the run takes satisfies `guard` in the state in which it is taken. -/
def Along (guard : State → Event → Prop) : State → List Event → Prop
  | _, [] => True
  | state, event :: rest =>
      guard state event ∧ ∀ next, step state event = some next → Along guard next rest

/-- Whether a run meets a guard is decided by running it. -/
instance decidableAlong (guard : State → Event → Prop)
    [∀ state event, Decidable (guard state event)]
    : ∀ state events, Decidable (Along step guard state events)
  | _, [] => isTrue trivial
  | state, event :: rest =>
      have : Decidable (∀ next, step state event = some next → Along step guard next rest) :=
        match step state event with
        | none => isTrue (fun _ same => nomatch same)
        | some next =>
            have := decidableAlong guard next rest
            decidable_of_iff (Along step guard next rest)
              ⟨fun along _ same => Option.some.inj same ▸ along, fun all => all next rfl⟩
      inferInstanceAs
        (Decidable
          (guard state event
            ∧ ∀ next, step state event = some next → Along step guard next rest))

variable {step} {state next final : State} {event : Event} {events : List Event}

@[simp]
theorem run_nil : run step state [] = some state := rfl

@[simp]
theorem run_cons
    : run step state (event :: events)
      = (step state event).bind (fun next => run step next events) := rfl

theorem run_single : run step state [event] = step state event := by
  rw [run_cons]
  exact Option.bind_fun_some (step state event)

/-- A run of an appended event list passes through the state after the first part. -/
theorem run_append (more : List Event)
    : run step state (events ++ more)
      = (run step state events).bind (fun next => run step next more) := by
  induction events generalizing state with
  | nil => rfl
  | cons event rest ih =>
      cases stepped : step state event with
      | none => simp [stepped]
      | some next => simpa [stepped] using ih

/-- What every accepted step preserves holds at the end of a run, by event induction. -/
theorem run_invariant {invariant : State → Prop}
    (preserved
      : ∀ {state next event},
          invariant state → step state event = some next → invariant next)
    (initial : invariant state) (ran : run step state events = some final)
    : invariant final := by
  induction events generalizing state with
  | nil => exact Option.some.inj ran ▸ initial
  | cons event rest ih =>
      obtain ⟨next, stepped, later⟩ := Option.bind_eq_some_iff.mp ran
      exact ih (preserved initial stepped) later

/-- What every guarded step preserves holds at the end of a run that meets the guard. -/
theorem run_invariant_along {invariant : State → Prop} {guard : State → Event → Prop}
    (preserved
      : ∀ {state next event},
          invariant state → guard state event → step state event = some next
          → invariant next)
    (initial : invariant state) (along : Along step guard state events)
    (ran : run step state events = some final)
    : invariant final := by
  induction events generalizing state with
  | nil => exact Option.some.inj ran ▸ initial
  | cons event rest ih =>
      obtain ⟨next, stepped, later⟩ := Option.bind_eq_some_iff.mp ran
      exact ih (preserved initial along.1 stepped) (along.2 next stepped) later

/-- A run that meets a guard is no longer than a measure that every step decreases by one, up to
what the event adds to it, by event induction.
-/
theorem run_length_le_along {invariant : State → Prop} {guard : State → Event → Prop}
    {measure : State → Nat} {supply : Event → Nat}
    (spent
      : ∀ {state next event},
          invariant state → guard state event → step state event = some next
          → invariant next ∧ measure next + 1 ≤ measure state + supply event)
    (initial : invariant state) (along : Along step guard state events)
    (ran : run step state events = some final)
    : events.length + measure final ≤ measure state + (events.map supply).sum := by
  induction events generalizing state with
  | nil =>
      obtain rfl := Option.some.inj ran
      simp
  | cons event rest ih =>
      obtain ⟨next, stepped, later⟩ := Option.bind_eq_some_iff.mp ran
      obtain ⟨kept, now⟩ := spent initial along.1 stepped
      have shorter := ih kept (along.2 next stepped) later
      simp only [List.length_cons, List.map_cons, List.sum_cons]
      omega

/-- Steps that keep an invariant and decrease a measure lead to a state in which none of them can be
taken, by measure induction.
-/
theorem exists_rest_along {invariant : State → Prop} {moves : State → Event → Prop}
    {measure : State → Nat}
    (less
      : ∀ {state next event},
          invariant state → moves state event → step state event = some next
          → invariant next ∧ measure next < measure state)
    (initial : invariant state)
    : ∃ events final,
        Along step moves state events
        ∧ run step state events = some final
        ∧ ∀ event, moves final event → step final event = none := by
  induction size : measure state using Nat.strong_induction_on generalizing state with
  | h left ih =>
      by_cases rests : ∀ event, moves state event → step state event = none
      · exact ⟨[], state, trivial, rfl, rests⟩
      · push Not at rests
        obtain ⟨event, move, going⟩ := rests
        obtain ⟨next, stepped⟩ := Option.ne_none_iff_exists'.mp going
        obtain ⟨kept, closer⟩ := less initial move stepped
        obtain ⟨events, final, all, ran, ended⟩ := ih (measure next) (size ▸ closer) kept rfl
        refine ⟨event :: events, final, ⟨move, fun after same => ?_⟩, ?_, ended⟩
        · obtain rfl := Option.some.inj (stepped.symm.trans same)
          exact all
        · rw [run_cons, stepped]
          exact ran

/-- A guard on events alone holds along a run of events that meet it. -/
theorem along_of_forall {guard : Event → Prop} (all : ∀ event ∈ events, guard event)
    : Along step (fun _ event => guard event) state events := by
  induction events generalizing state with
  | nil => trivial
  | cons event rest ih =>
      refine ⟨all event List.mem_cons_self, fun next _ => ih ?_⟩
      exact fun later member => all later (List.mem_cons_of_mem event member)

/-- A run is no longer than a measure that every step decreases by one, up to what the event adds to
it.
-/
theorem run_length_le_supplied {measure : State → Nat} {supply : Event → Nat}
    (spent
      : ∀ {state next event},
          step state event = some next → measure next + 1 ≤ measure state + supply event)
    (ran : run step state events = some final)
    : events.length + measure final ≤ measure state + (events.map supply).sum :=
  @run_length_le_along _ _ step state final events (fun _ => True) (fun _ _ => True) measure supply
    (fun _ _ stepped => ⟨trivial, spent stepped⟩) trivial
    (along_of_forall (fun _ _ => trivial)) ran

/-- Two guards that hold along a run hold together. -/
theorem along_and {left right : State → Event → Prop} (first : Along step left state events)
    (second : Along step right state events)
    : Along step (fun state event => left state event ∧ right state event) state events := by
  induction events generalizing state with
  | nil => trivial
  | cons event rest ih =>
      refine ⟨⟨first.1, second.1⟩, fun next stepped => ?_⟩
      exact ih (first.2 next stepped) (second.2 next stepped)

/-- A guard gives another one along a run in which it keeps an invariant. -/
theorem along_of_invariant {guard other : State → Event → Prop} {invariant : State → Prop}
    (preserved
      : ∀ {state next event},
          invariant state → guard state event → step state event = some next
          → invariant next)
    (given : ∀ {state event}, invariant state → guard state event → other state event)
    (initial : invariant state) (along : Along step guard state events)
    : Along step other state events := by
  induction events generalizing state with
  | nil => trivial
  | cons event rest ih =>
      refine ⟨given initial along.1, fun next stepped => ?_⟩
      exact ih (preserved initial along.1 stepped) (along.2 next stepped)

/-- A guard holds along appended events when it holds along the first part and, from the state
after it, along the second.
-/
theorem along_append {guard : State → Event → Prop} (more : List Event)
    : Along step guard state (events ++ more)
      ↔ Along step guard state events
        ∧ ∀ middle, run step state events = some middle → Along step guard middle more := by
  induction events generalizing state with
  | nil => simp [Along]
  | cons event rest ih =>
      simp only [List.cons_append, Along, run_cons, Option.bind_eq_some_iff, ih]
      constructor
      · rintro ⟨now, later⟩
        refine ⟨⟨now, fun next stepped => (later next stepped).1⟩, ?_⟩
        rintro middle ⟨next, stepped, ran⟩
        exact (later next stepped).2 middle ran
      · rintro ⟨⟨now, later⟩, after⟩
        exact
          ⟨now, fun next stepped =>
            ⟨later next stepped, fun middle ran => after middle ⟨next, stepped, ran⟩⟩⟩

/-- Guards that agree in the states that they lead to agree along a run, by event induction. -/
theorem along_congr_of_invariant {left right : State → Event → Prop} {invariant : State → Prop}
    (agree : ∀ {state event}, invariant state → (left state event ↔ right state event))
    (preserved
      : ∀ {state next event},
          invariant state → left state event → step state event = some next
          → invariant next)
    (initial : invariant state)
    : Along step left state events ↔ Along step right state events := by
  induction events generalizing state with
  | nil => exact Iff.rfl
  | cons event rest ih =>
      constructor
      · intro ⟨now, later⟩
        refine ⟨(agree initial).mp now, fun next stepped => ?_⟩
        exact (ih (preserved initial now stepped)).mp (later next stepped)
      · intro ⟨now, later⟩
        have met := (agree initial).mpr now
        refine ⟨met, fun next stepped => ?_⟩
        exact (ih (preserved initial met stepped)).mpr (later next stepped)

/-- Guards that agree in every state agree along every run. -/
theorem along_congr {left right : State → Event → Prop}
    (agree : ∀ state event, left state event ↔ right state event)
    : Along step left state events ↔ Along step right state events :=
  @along_congr_of_invariant _ _ step state events left right (fun _ => True)
    (fun {state event} _ => agree state event) (fun _ _ _ => trivial) trivial

/-- A guard holds along a run exactly when it holds at every step that the run reaches. -/
theorem along_iff {guard : State → Event → Prop}
    : Along step guard state events
      ↔ ∀ done event rest before,
          events = done ++ event :: rest
          → run step state done = some before
          → guard before event := by
  induction events generalizing state with
  | nil =>
      refine ⟨fun _ done event rest before split => ?_, fun _ => trivial⟩
      exact absurd split.symm (by simp)
  | cons first tail ih =>
      constructor
      · rintro ⟨now, later⟩ done event rest before split ran
        cases done with
        | nil =>
            obtain ⟨rfl, rfl⟩ := List.cons.inj split
            exact Option.some.inj ran ▸ now
        | cons head done =>
            obtain ⟨rfl, splitTail⟩ := List.cons.inj split
            obtain ⟨next, stepped, ranTail⟩ := Option.bind_eq_some_iff.mp ran
            exact ih.mp (later next stepped) done event rest before splitTail ranTail
      · intro reached
        refine ⟨reached [] first tail state rfl rfl, fun next stepped => ih.mpr ?_⟩
        intro done event rest before split ran
        refine reached (first :: done) event rest before (by rw [split]; rfl) ?_
        rw [run_cons, stepped]
        exact ran

/-- Steps that decrease a measure lead to a state in which none of them can be taken. -/
theorem exists_rest {measure : State → Nat} {moves : Event → Prop}
    (less
      : ∀ {state next event},
          moves event → step state event = some next → measure next < measure state)
    (state : State)
    : ∃ events final,
        (∀ event ∈ events, moves event)
        ∧ run step state events = some final
        ∧ ∀ event, moves event → step final event = none := by
  obtain ⟨events, final, along, ran, ended⟩ :=
    @exists_rest_along _ _ step state (fun _ => True) (fun _ event => moves event) measure
      (fun _ move stepped => ⟨trivial, less move stepped⟩) trivial
  refine ⟨events, final, fun event member => ?_, ran, ended⟩
  obtain ⟨done, rest, split⟩ := List.append_of_mem member
  rw [split, run_append] at ran
  obtain ⟨before, first, _⟩ := Option.bind_eq_some_iff.mp ran
  exact along_iff.mp along done event rest before split first

/-- A guard that each step meets exactly when it leads from a good state to a good one holds along
a run exactly when every state that the run reaches is good, by event induction.
-/
theorem reached_iff_along {good : State → Prop} {guard : State → Event → Prop}
    (exactly
      : ∀ {state event next},
          good state → step state event = some next → (good next ↔ guard state event))
    (refused : ∀ {state event}, step state event = none → guard state event)
    (initial : good state)
    : (∀ done final, done <+: events → run step state done = some final → good final)
      ↔ Along step guard state events := by
  induction events generalizing state with
  | nil =>
      refine ⟨fun _ => trivial, fun _ done final early ran => ?_⟩
      obtain rfl := List.prefix_nil.mp early
      exact Option.some.inj ran ▸ initial
  | cons event rest ih =>
      constructor
      · intro reached
        refine ⟨?_, fun next stepped => ?_⟩
        · cases stepped : step state event with
          | none => exact refused stepped
          | some next =>
              have alone : run step state [event] = some next := by rw [run_cons, stepped]; rfl
              have begins : [event] <+: event :: rest := List.prefix_append [event] rest
              exact (exactly initial stepped).mp (reached _ _ begins alone)
        · have alone : run step state [event] = some next := by rw [run_cons, stepped]; rfl
          have begins : [event] <+: event :: rest := List.prefix_append [event] rest
          refine (ih (reached _ _ begins alone)).mp (fun done final early ran => ?_)
          refine reached (event :: done) final (List.cons_prefix_cons.mpr ⟨rfl, early⟩) ?_
          rw [run_cons, stepped]
          exact ran
      · rintro ⟨now, later⟩ done final early ran
        cases done with
        | nil => exact Option.some.inj ran ▸ initial
        | cons head done =>
            obtain ⟨rfl, tail⟩ := List.cons_prefix_cons.mp early
            obtain ⟨next, stepped, ranTail⟩ := Option.bind_eq_some_iff.mp ran
            have good := (exactly initial stepped).mpr now
            exact (ih good).mpr (later next stepped) done final tail ranTail

section View

variable {Other Label : Type*} {other : Other → Label → Option Other} {view : State → Other}
  {rename : Event → Label}

/-- Under a view of the states and another name for the events, a run of one system is a run of
another as long as each step is one, by event induction.
-/
theorem run_map_of_along {invariant : State → Prop} {guard : State → Event → Prop}
    (agree
      : ∀ {state event},
          invariant state → guard state event
          → (step state event).map view = other (view state) (rename event))
    (preserved
      : ∀ {state next event},
          invariant state → guard state event → step state event = some next
          → invariant next)
    (initial : invariant state) (along : Along step guard state events)
    : (run step state events).map view = run other (view state) (events.map rename) := by
  induction events generalizing state with
  | nil => rfl
  | cons event rest ih =>
      have first := agree initial along.1
      rw [run_cons, List.map_cons, run_cons, ← first]
      cases stepped : step state event with
      | none => rfl
      | some next =>
          have later := ih (preserved initial along.1 stepped) (along.2 next stepped)
          simpa using later

/-- Every beginning of a run is a run of the other system exactly when each of its steps is one. -/
theorem run_map_iff_along {guard : State → Event → Prop}
    (exactly
      : ∀ state event,
          (step state event).map view = other (view state) (rename event) ↔ guard state event)
    : (∀ done,
        done <+: events
        → (run step state done).map view = run other (view state) (done.map rename))
      ↔ Along step guard state events := by
  constructor
  · intro mapped
    induction events generalizing state with
    | nil => trivial
    | cons event rest ih =>
        have alone := mapped [event] (List.prefix_append [event] rest)
        rw [List.map_singleton, run_single, run_single] at alone
        refine ⟨(exactly state event).mp alone, fun next stepped => ih (fun done early => ?_)⟩
        have whole := mapped (event :: done) (List.cons_prefix_cons.mpr ⟨rfl, early⟩)
        rw [stepped, Option.map_some] at alone
        rw [run_cons, List.map_cons, run_cons, stepped, ← alone] at whole
        exact whole
  · intro along done early
    obtain ⟨rest, rfl⟩ := early
    refine @run_map_of_along _ _ step state done _ _ other view rename (fun _ => True) guard
      (fun _ met => (exactly _ _).mpr met) (fun _ _ _ => trivial) trivial ?_
    exact ((along_append rest).mp along).1

end View

variable (step) in
/-- Some run leads from the first state to the second. -/
def Reaches (state final : State) : Prop := ∃ events, run step state events = some final

theorem Reaches.refl : Reaches step state state := ⟨[], rfl⟩

theorem Reaches.trans {middle : State} (first : Reaches step state middle)
    (second : Reaches step middle final)
    : Reaches step state final := by
  obtain ⟨events, ran⟩ := first
  obtain ⟨more, ranOn⟩ := second
  exact ⟨events ++ more, by rw [run_append, ran, Option.bind_some, ranOn]⟩

theorem Reaches.single (stepped : step state event = some next) : Reaches step state next :=
  ⟨[event], by rw [run_cons, stepped]; rfl⟩

theorem Reaches.invariant {invariant : State → Prop}
    (preserved
      : ∀ {state next event},
          invariant state → step state event = some next → invariant next)
    (initial : invariant state) (reached : Reaches step state final)
    : invariant final := by
  obtain ⟨events, ran⟩ := reached
  exact run_invariant preserved initial ran

/-- A finer system whose every step is a run of this one, up to `settled`, reaches no state but
one of this system's.
-/
theorem Reaches.simulates {Fine Label : Type*} {fine : Fine → Label → Option Fine}
    {settled : Fine → State} {invariant : Fine → Prop} {first last : Fine} {labels : List Label}
    (matched
      : ∀ {now label after},
          invariant now → fine now label = some after
          → invariant after ∧ Reaches step (settled now) (settled after))
    (initial : invariant first) (ran : run fine first labels = some last)
    : invariant last ∧ Reaches step (settled first) (settled last) := by
  let reached (now : Fine) : Prop := invariant now ∧ Reaches step (settled first) (settled now)
  have both {now label after} (sofar : reached now) (stepped : fine now label = some after)
      : reached after :=
    have ⟨holds, later⟩ := matched sofar.1 stepped
    ⟨holds, sofar.2.trans later⟩
  have begun : reached first := ⟨initial, Reaches.refl⟩
  have ended : reached last := run_invariant both begun ran
  exact ended

section Trace

variable {Fine Label : Type*} {fine : Fine → Label → Option Fine} {labels : List Label}
  {events : Fine → Label → List Event}

variable (fine events) in
/-- What a run of a finer system does in the events of a coarser one, step after step. -/
def trace : Fine → List Label → List Event
  | _, [] => []
  | now, label :: rest =>
      events now label
      ++ match fine now label with
        | none => []
        | some after => trace after rest

/-- A trace of one run after another. -/
theorem trace_append {first middle : Fine} (ran : run fine first labels = some middle)
    (more : List Label)
    : trace fine events first (labels ++ more)
      = trace fine events first labels ++ trace fine events middle more := by
  induction labels generalizing first with
  | nil =>
      obtain rfl := Option.some.inj ran
      rfl
  | cons label rest ih =>
      obtain ⟨after, stepped, later⟩ := Option.bind_eq_some_iff.mp ran
      simp only [List.cons_append, trace, stepped]
      rw [ih later, List.append_assoc]

/-- What every step keeps of a state and of all that has come out on the way to it holds at the end
of a run, by induction on the run.
-/
theorem trace_invariant_along {guard : Fine → Label → Prop} {invariant : List Event → Fine → Prop}
    {first last : Fine} {before : List Event}
    (preserved
      : ∀ {sofar now label after},
          invariant sofar now → guard now label → fine now label = some after
          → invariant (sofar ++ events now label) after)
    (initial : invariant before first) (along : Along fine guard first labels)
    (ran : run fine first labels = some last)
    : invariant (before ++ trace fine events first labels) last := by
  induction labels generalizing first before with
  | nil =>
      obtain rfl := Option.some.inj ran
      rwa [trace, List.append_nil]
  | cons label rest ih =>
      obtain ⟨after, stepped, later⟩ := Option.bind_eq_some_iff.mp ran
      have kept := ih (preserved initial along.1 stepped) (along.2 after stepped) later
      simp only [trace, stepped]
      rwa [List.append_assoc] at kept

end Trace

/-- Along a run what comes out is paid for by what goes in and by what the state has saved, when
each step pays so, by event induction.
-/
theorem countP_trace_le_along {In Out : Type*} {guard : State → Event → Prop}
    {outs : State → Event → List Out} {ins : State → Event → List In} {saved : State → Nat}
    {leaves : Out → Bool} {enters : In → Bool} {price : Nat}
    (paid
      : ∀ {state next event},
          guard state event → step state event = some next
          → (outs state event).countP leaves + saved next
            ≤ saved state + price * (ins state event).countP enters)
    (along : Along step guard state events) (ran : run step state events = some final)
    : (trace step outs state events).countP leaves + saved final
      ≤ saved state + price * (trace step ins state events).countP enters := by
  induction events generalizing state with
  | nil =>
      obtain rfl := Option.some.inj ran
      simp [trace]
  | cons event rest ih =>
      obtain ⟨next, stepped, later⟩ := Option.bind_eq_some_iff.mp ran
      have now := paid along.1 stepped
      have after := ih (along.2 next stepped) later
      simp only [trace, stepped, List.countP_append, Nat.mul_add]
      omega

variable (step) in
/-- Some run whose steps all meet the guard leads from the first state to the second. -/
def ReachesAlong (guard : State → Event → Prop) (state final : State) : Prop :=
  ∃ events, Along step guard state events ∧ run step state events = some final

section Along

variable {guard : State → Event → Prop} {middle : State}

theorem ReachesAlong.refl : ReachesAlong step guard state state := ⟨[], trivial, rfl⟩

theorem ReachesAlong.snoc (reached : ReachesAlong step guard state middle) (event : Event)
    (met : guard middle event) (stepped : step middle event = some final)
    : ReachesAlong step guard state final := by
  obtain ⟨events, along, ran⟩ := reached
  refine ⟨events ++ [event], (along_append [event]).mpr ⟨along, ?_⟩, ?_⟩
  · intro other same
    obtain rfl := Option.some.inj (ran.symm.trans same)
    exact ⟨met, fun _ _ => trivial⟩
  · rw [run_append, ran, Option.bind_some, run_cons, stepped]
    rfl

theorem ReachesAlong.invariant {invariant : State → Prop}
    (preserved
      : ∀ {state next event},
          invariant state → guard state event → step state event = some next
          → invariant next)
    (initial : invariant state) (reached : ReachesAlong step guard state final)
    : invariant final := by
  obtain ⟨events, along, ran⟩ := reached
  exact run_invariant_along preserved initial along ran

end Along

section Family

variable {Key : Type*} [DecidableEq Key]

variable (step) in
/-- One system for each key: a step of one leaves the others alone. -/
def stepAt (states : Key → State) (event : Key × Event) : Option (Key → State) :=
  (step (states event.1) event.2).map (Function.update states event.1)

/-- What every system keeps, all of them keep together. -/
theorem stepAt_invariant {invariant : State → Prop} {guard : Event → Prop}
    {states later : Key → State} {event : Key × Event}
    (preserved
      : ∀ {state next event},
          invariant state → guard event → step state event = some next → invariant next)
    (initial : ∀ key, invariant (states key)) (met : guard event.2)
    (stepped : stepAt step states event = some later) (key : Key)
    : invariant (later key) := by
  obtain ⟨next, moved, rfl⟩ := Option.map_eq_some_iff.mp stepped
  by_cases same : key = event.1
  · subst same
    rw [Function.update_self]
    exact preserved (initial event.1) met moved
  · rw [Function.update_of_ne same]
    exact initial key

end Family

end TransitionSystem
