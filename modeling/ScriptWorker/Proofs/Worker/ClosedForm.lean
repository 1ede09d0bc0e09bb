import ScriptWorker.Proofs.Worker.Serving

/-!
# A run in closed form

`closedForm` describes a whole run without a state: the first source that loads splits the lines,
every function message in front of it is refused, it is confirmed, and each request behind it is
answered with the result of one more call of its unit, until a failure is fatal.
`run_eq_closedForm` says that this is what a run does, for every input, loader, unit and choice of
options, where the streams and the clock do not fail.
-/

set_option autoImplicit false

namespace ScriptWorker.Worker

open Channel Loading Message

universe u v

variable {κ : Type u} {υ : Type v}

/-- What a run comes to. -/
structure ClosedForm where
  said : List Outbound
  /-- The failure that ends the run, if one does. -/
  failure : Option InvocationError
  /-- How many lines are read. -/
  read : Nat

/-- The closed form of a run whose input has the given lines. -/
def closedForm (st : Strategy κ υ) (options : Options) (times : Nat → String) (k : κ)
    (ms : List (Option Inbound)) : ClosedForm :=
  match st.opening k ms with
  | none =>
    ⟨.started :: .replicate (ms.countP isFunction) (.functionLoaded false), none, ms.length⟩
  | some j =>
    let xs := st.exchanges times 0 j.unit (requests j.after)
    let served := throughFatal options xs
    let fatal := xs.findSome? (·.fatal? options)
    ⟨.started :: .replicate (j.before.countP isFunction) (.functionLoaded false) ++
        .functionLoaded true :: served.flatMap (·.replies options),
      fatal,
      if fatal.isSome then j.before.length + 1 + linesThrough served.length j.after
      else ms.length⟩

theorem closedForm_read {st : Strategy κ υ} {options : Options} {times : Nat → String} {k : κ}
    {ms : List (Option Inbound)} (h : (closedForm st options times k ms).failure = none) :
    (closedForm st options times k ms).read = ms.length := by
  unfold closedForm at h ⊢
  split
  · rfl
  · rename_i hj
    simp only [hj] at h ⊢
    rw [h]
    rfl

/-- The course of the lines is the closed form without `started`. -/
theorem course_eq_closedForm (s : Setup κ υ) {times : Nat → String} (hs : s.clock = .showing times)
    (k : κ) (ms : List (Option Inbound)) :
    let f := closedForm s.strategy s.options times k ms
    let c := s.course (.fresh k) ms
    .started :: c.said = f.said ∧ c.result = endOf f.failure ∧ c.read = f.read := by
  unfold closedForm
  split
  · rename_i h
    have hc : s.course (.fresh k) ms = _ := s.course_loading_none (n := 0) h
    rw [hc]
    exact ⟨rfl, rfl, rfl⟩
  · rename_i j h
    have hc : s.course (.fresh k) ms = _ := s.course_loading_some (n := 0) h
    obtain ⟨h1, h2, h3⟩ := s.course_serving hs (w := ⟨j.loader, 0, .serving j.unit⟩) rfl
      (n := 0) (fun _ => rfl) j.after
    have hl : ms.length = j.before.length + 1 + j.after.length := by
      rw [(s.strategy.opening_eq_some_iff.1 h).1, List.length_append, List.length_cons]
      omega
    rw [hc]
    simp only [Course.followedBy]
    refine ⟨by rw [h1, List.append_assoc]; rfl, h2, ?_⟩
    rw [h3, hl]
    split <;> rfl

/-- **A run in closed form.** Over streams that do not fail and with a clock that does not fail, a
run writes exactly the lines of its closed form, ends as that says, and reads the lines that it
counts: all of them, unless a failure is fatal. -/
theorem run_eq_closedForm (st : Strategy κ υ) (options : Options) (times : Nat → String) (k : κ)
    (input : List UInt8) :
    let f := closedForm st options times k (inbox input)
    let r := Setup.run ⟨st, options, .showing times⟩ k input none .none
    r.2.outlets.sink.written = f.said.map Outbound.line ∧ r.1 = endOf f.failure ∧
      r.2.unread = ((segments input).drop f.read).flatten ∧
      (f.failure = none → r.2.unread = []) := by
  let s : Setup κ υ := ⟨st, options, .showing times⟩
  intro f r
  obtain ⟨h1, h2, h3⟩ := course_eq_closedForm s rfl k (inbox input)
  obtain ⟨r1, r2, -, -⟩ := s.run_course k input
  have hu : r.2.unread = ((segments input).drop f.read).flatten := by
    rw [r2, h3]
  refine ⟨by rw [s.run_written, h1], by rw [r1, h2], hu, fun hf => ?_⟩
  rw [hu, closedForm_read hf, inbox, List.length_map, List.drop_length, List.flatten_nil]

end ScriptWorker.Worker
