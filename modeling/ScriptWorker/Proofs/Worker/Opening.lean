import ScriptWorker.Proofs.Worker.Course

/-!
# The first source that loads

`Strategy.opening` splits the lines of an input at the first one whose source the loader accepts.
The loader may remember what it was called with, so its memory is threaded through the function
messages in order (`Strategy.memory`). `opening_eq_some_iff` and `opening_eq_none_iff` say which
line is found, and `course_loading` what a worker does up to it: it refuses every function message
in front, passes over everything else, and serves from there on.
-/

set_option autoImplicit false

namespace ScriptWorker.Worker

open Channel Loading Message

universe u v

variable {κ : Type u} {υ : Type v}

/-! ## Kinds of lines -/

/-- The line holds a function message. -/
def isFunction : Option Inbound → Bool
  | some (.function _) => true
  | _ => false

/-- The argument of a line that holds a request. -/
def argument? : Option Inbound → Option Json.Value
  | some (.request argument) => some argument
  | _ => none

/-- The arguments of the requests among lines, in order. -/
def requests (ms : List (Option Inbound)) : List Json.Value := ms.filterMap argument?

/-! ## Attempts to load -/

namespace Strategy

variable (st : Strategy κ υ)

/-- What the loader makes of a line while nothing is loaded: the unit, if the line holds a source
that loads, and its memory after. -/
def attempt (k : κ) : Option Inbound → Option υ × κ
  | some (.function source) => ((st.offer k source).1.toOption, (st.offer k source).2)
  | _ => (none, k)

/-- The loader's memory after it has been offered the sources on lines. -/
def memory (k : κ) (ms : List (Option Inbound)) : κ := ms.foldl (fun k m => (st.attempt k m).2) k

@[simp] theorem memory_nil (k : κ) : st.memory k [] = k := rfl

@[simp] theorem memory_cons (k : κ) (m : Option Inbound) (ms : List (Option Inbound)) :
    st.memory k (m :: ms) = st.memory (st.attempt k m).2 ms := rfl

theorem attempt_of_not_isFunction {m : Option Inbound} (h : isFunction m = false) (k : κ) :
    st.attempt k m = (none, k) := by
  rcases m with _ | (_ | _ | _)
  all_goals first | rfl | cases h

end Strategy

/-- Lines around the first one whose source loads. -/
structure Opening (κ : Type u) (υ : Type v) where
  before : List (Option Inbound)
  line : Option Inbound
  /-- The unit that the source loads as. -/
  unit : υ
  /-- The loader's memory after that. -/
  loader : κ
  after : List (Option Inbound)

/-- The opening behind one more line. -/
def Opening.behind (m : Option Inbound) (j : Opening κ υ) : Opening κ υ :=
  { j with before := m :: j.before }

namespace Strategy

variable (st : Strategy κ υ)

/-- Splits lines at the first one whose source loads. -/
def opening (k : κ) : List (Option Inbound) → Option (Opening κ υ)
  | [] => none
  | m :: ms =>
    match st.attempt k m with
    | (some unit, loader) => some ⟨[], m, unit, loader, ms⟩
    | (none, loader) => (opening loader ms).map (.behind m)

@[simp] theorem opening_nil (k : κ) : st.opening k [] = none := rfl

theorem opening_cons_some {k loader : κ} {m : Option Inbound} {unit : υ}
    (h : st.attempt k m = (some unit, loader)) (ms : List (Option Inbound)) :
    st.opening k (m :: ms) = some ⟨[], m, unit, loader, ms⟩ := by
  rw [opening, h]

theorem opening_cons_none {k : κ} {m : Option Inbound} (h : (st.attempt k m).1 = none)
    (ms : List (Option Inbound)) :
    st.opening k (m :: ms) = (st.opening (st.attempt k m).2 ms).map (.behind m) := by
  rw [opening]
  rcases ha : st.attempt k m with ⟨_ | unit, loader⟩
  · rfl
  · rw [ha] at h
    cases h

/-- No line loads exactly if none does when its turn comes. -/
theorem opening_eq_none_iff {k : κ} {ms : List (Option Inbound)} :
    st.opening k ms = none ↔
      ∀ before m after, ms = before ++ m :: after →
        (st.attempt (st.memory k before) m).1 = none := by
  induction ms generalizing k with
  | nil => simp
  | cons m ms ih =>
    cases ha : (st.attempt k m).1 with
    | some unit =>
      rw [opening_cons_some st (Prod.ext ha rfl)]
      simp only [reduceCtorEq, false_iff]
      intro h
      have := h [] m ms rfl
      rw [memory_nil, ha] at this
      cases this
    | none =>
      rw [opening_cons_none st ha, Option.map_eq_none_iff, ih]
      constructor
      · rintro h (_ | ⟨b, before⟩) m' after he
        · cases he
          exact ha
        · cases he
          exact h before m' after rfl
      · intro h before m' after he
        exact h (m :: before) m' after (by rw [he]; rfl)

/-- The line that is found is one that loads, and no line in front of it does. -/
theorem opening_eq_some_iff {k : κ} {ms : List (Option Inbound)} {j : Opening κ υ} :
    st.opening k ms = some j ↔
      ms = j.before ++ j.line :: j.after ∧ st.opening k j.before = none ∧
        st.attempt (st.memory k j.before) j.line = (some j.unit, j.loader) := by
  induction ms generalizing k j with
  | nil => simp
  | cons m ms ih =>
    cases ha : (st.attempt k m).1 with
    | some unit =>
      -- the head loads, so the split has nothing in front
      rw [opening_cons_some st (Prod.ext ha rfl)]
      obtain ⟨_ | ⟨b, before⟩, line, u, loader, after⟩ := j
      · simp only [Option.some.injEq, Opening.mk.injEq, List.nil_append, List.cons.injEq,
          opening_nil, memory_nil, true_and]
        constructor
        · rintro ⟨rfl, rfl, rfl, rfl⟩
          exact ⟨⟨rfl, rfl⟩, Prod.ext ha rfl⟩
        · rintro ⟨⟨rfl, rfl⟩, h⟩
          rw [h] at ha ⊢
          cases ha
          exact ⟨rfl, rfl, rfl, rfl⟩
      · simp only [Option.some.injEq, Opening.mk.injEq, reduceCtorEq, false_and, false_iff,
          List.cons_append, List.cons.injEq, not_and]
        rintro ⟨rfl, -⟩ h
        rw [opening_cons_some st (Prod.ext ha rfl)] at h
        cases h
    | none =>
      -- the head does not load, so the split is one of the tail with the head in front
      rw [opening_cons_none st ha, Option.map_eq_some_iff]
      obtain ⟨_ | ⟨b, before⟩, line, u, loader, after⟩ := j
      · simp only [Opening.behind, Opening.mk.injEq, reduceCtorEq, false_and, and_false,
          exists_false, List.nil_append, List.cons.injEq, opening_nil, memory_nil, true_and,
          false_iff, not_and]
        rintro ⟨rfl, -⟩ h
        rw [h] at ha
        cases ha
      · constructor
        · rintro ⟨j, hj, he⟩
          cases he
          obtain ⟨h1, h2, h3⟩ := ih.1 hj
          refine ⟨by rw [h1]; rfl, ?_, h3⟩
          rw [opening_cons_none st ha, h2]
          rfl
        · rintro ⟨h1, h2, h3⟩
          cases h1
          rw [opening_cons_none st ha, Option.map_eq_none_iff] at h2
          exact ⟨⟨before, line, u, loader, after⟩, ih.2 ⟨rfl, h2, h3⟩, rfl⟩

/-- The line that is found holds a function message with a text. -/
theorem attempt_eq_some {k loader : κ} {m : Option Inbound} {unit : υ}
    (h : st.attempt k m = (some unit, loader)) :
    ∃ text, m = some (.function (.string text)) ∧ (st.load k text).1 = .ok unit ∧
      (st.load k text).2.1 = loader := by
  rcases m with _ | (source | _ | _)
  · cases h
  · cases source with
    | string text =>
      simp only [attempt, offer, Prod.mk.injEq] at h
      refine ⟨text, rfl, ?_, h.2⟩
      cases hr : (st.load k text).1 with
      | ok u =>
        rw [hr] at h
        cases h.1
        rfl
      | error e =>
        rw [hr] at h
        cases h.1
    | _ => cases h
  · cases h
  · cases h

end Strategy

/-! ## The course of loading -/

namespace Setup

variable (s : Setup κ υ)

theorem turn_loading_some {k loader : κ} {n : Nat} {m : Option Inbound} {unit : υ}
    (h : s.strategy.attempt k m = (some unit, loader)) :
    s.turn ⟨k, n, .loading⟩ m = .saying ⟨loader, n, .serving unit⟩ (.functionLoaded true) := by
  rcases m with _ | (source | _ | _)
  · cases h
  · simp only [Strategy.attempt] at h
    simp only [turn, loadTurn]
    rcases ho : s.strategy.offer k source with ⟨_ | u, k'⟩
    · rw [ho] at h
      cases h
    · rw [ho] at h
      cases h
      rfl
  · cases h
  · cases h

theorem turn_loading_none {k : κ} {n : Nat} {m : Option Inbound}
    (h : (s.strategy.attempt k m).1 = none) :
    s.turn ⟨k, n, .loading⟩ m =
      if isFunction m then
        .saying ⟨(s.strategy.attempt k m).2, n, .loading⟩ (.functionLoaded false)
      else .silent ⟨k, n, .loading⟩ := by
  rcases m with _ | (source | _ | _)
  · rfl
  · simp only [Strategy.attempt] at h ⊢
    simp only [turn, loadTurn, isFunction, if_true]
    rcases ho : s.strategy.offer k source with ⟨_ | u, k'⟩
    · rfl
    · rw [ho] at h
      cases h
  · rfl
  · rfl

/-- Where no line loads, each function message is refused. -/
theorem course_loading_none {k : κ} {n : Nat} {ms : List (Option Inbound)}
    (h : s.strategy.opening k ms = none) :
    s.course ⟨k, n, .loading⟩ ms =
      ⟨.replicate (ms.countP isFunction) (.functionLoaded false), .ok (),
        ⟨s.strategy.memory k ms, n, .loading⟩, ms.length⟩ := by
  induction ms generalizing k with
  | nil => rfl
  | cons m ms ih =>
    cases ha : (s.strategy.attempt k m).1 with
    | some unit =>
      rw [s.strategy.opening_cons_some (Prod.ext ha rfl)] at h
      cases h
    | none =>
      rw [s.strategy.opening_cons_none ha, Option.map_eq_none_iff] at h
      have ht := s.turn_loading_none (n := n) ha
      cases hf : isFunction m with
      | true =>
        rw [hf, if_pos rfl] at ht
        rw [s.course_cons_ok (by rw [ht]; rfl), ht]
        simp only [Turn.saying, ih h, Course.behind, Turn.messages, List.map_cons, List.map_nil,
          Strategy.memory_cons, List.length_cons]
        rw [List.countP_cons_of_pos hf, List.replicate_succ, List.singleton_append]
      | false =>
        have hm := s.strategy.attempt_of_not_isFunction hf k
        rw [hf, if_neg Bool.false_ne_true] at ht
        rw [hm] at h
        rw [s.course_cons_silent ht, ih h, Strategy.memory_cons, hm, List.length_cons,
          List.countP_cons_of_neg (by simp [hf])]

/-- **Up to the first source that loads** each function message is refused; that one is confirmed,
and the worker serves the lines behind it. -/
theorem course_loading_some {k : κ} {n : Nat} {ms : List (Option Inbound)} {j : Opening κ υ}
    (h : s.strategy.opening k ms = some j) :
    s.course ⟨k, n, .loading⟩ ms =
      Course.followedBy
        ⟨.replicate (j.before.countP isFunction) (.functionLoaded false) ++ [.functionLoaded true],
          .ok (), ⟨j.loader, n, .serving j.unit⟩, j.before.length + 1⟩
        (s.course ⟨j.loader, n, .serving j.unit⟩ j.after) := by
  obtain ⟨h1, h2, h3⟩ := s.strategy.opening_eq_some_iff.1 h
  have hb := s.course_loading_none (n := n) h2
  have ht := s.turn_loading_some (n := n) h3
  rw [h1, s.course_append (by rw [hb]), hb, s.course_cons_ok (by rw [ht]; rfl), ht]
  simp only [Turn.saying, Course.followedBy, Course.behind, Turn.messages, List.map_cons,
    List.map_nil, List.append_assoc]
  congr 1
  omega

end Setup

end ScriptWorker.Worker
