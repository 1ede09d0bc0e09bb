import ScriptWorker.Proofs.Worker.Phase

/-!
# What the loader and the unit are called with

The recording strategy does what a strategy does and keeps, beside the loader's memory, the texts
that the loader has been called with, and beside a unit the arguments that it has been called with
since it was loaded. Forgetting the records gives back the worker (`forget_handleLines`), so what
the records say of the recording worker holds of the worker itself.
-/

set_option autoImplicit false

namespace ScriptWorker.Worker

open Channel Loading Message

universe u v

variable {κ : Type u} {υ : Type v}

/-- The text on a line that holds a function message with a text. -/
def text? : Option Inbound → Option String
  | some (.function (.string text)) => some text
  | _ => none

/-- The texts of the function messages among lines that have one, in order. -/
def texts (ms : List (Option Inbound)) : List String := ms.filterMap text?

theorem texts_cons (m : Option Inbound) (ms : List (Option Inbound)) :
    texts (m :: ms) = (text? m).toList ++ texts ms := by
  rw [texts, List.filterMap_cons]
  cases text? m <;> rfl

theorem texts_singleton (m : Option Inbound) : texts [m] = (text? m).toList := by
  rw [texts_cons]
  exact List.append_nil _

namespace Strategy

variable (st : Strategy κ υ)

/-- The strategy with records of the calls. -/
def recorded : Strategy (κ × List String) (υ × List Json.Value) where
  load := fun (k, called) text =>
    let (result, loader, events) := st.load k text
    (result.map (·, []), (loader, called ++ [text]), events)
  invoke := fun (unit, called) argument =>
    let (result, unit, events) := st.invoke unit argument
    (result, (unit, called ++ [argument]), events)

theorem attempt_recorded (k : κ) (called : List String) (m : Option Inbound) :
    st.recorded.attempt (k, called) m =
      ((st.attempt k m).1.map (·, []), (st.attempt k m).2, called ++ (text? m).toList) := by
  rcases m with _ | (source | _ | _)
  · simp [attempt, text?]
  · cases source with
    | string text =>
      simp only [attempt, offer, recorded, text?]
      cases (st.load k text).1 <;> rfl
    | _ => simp [attempt, offer, text?, Except.toOption]
  · simp [attempt, text?]
  · simp [attempt, text?]

theorem memory_recorded (k : κ) (called : List String) (ms : List (Option Inbound)) :
    st.recorded.memory (k, called) ms = (st.memory k ms, called ++ texts ms) := by
  induction ms generalizing k called with
  | nil => rw [memory_nil, memory_nil, texts, List.filterMap_nil, List.append_nil]
  | cons m ms ih =>
    rw [memory_cons, attempt_recorded, ih, memory_cons, texts_cons, List.append_assoc]

theorem opening_recorded (k : κ) (called : List String) (ms : List (Option Inbound)) :
    st.recorded.opening (k, called) ms = (st.opening k ms).map fun j =>
      ⟨j.before, j.line, (j.unit, []), (j.loader, called ++ texts (j.before ++ [j.line])),
        j.after⟩ := by
  induction ms generalizing k called with
  | nil => rfl
  | cons m ms ih =>
    have hr := st.attempt_recorded k called m
    cases ha : (st.attempt k m).1 with
    | some unit =>
      rw [ha] at hr
      rw [st.recorded.opening_cons_some hr, st.opening_cons_some (Prod.ext ha rfl)]
      simp only [Option.map_some, List.nil_append, texts_singleton]
    | none =>
      rw [ha] at hr
      rw [st.recorded.opening_cons_none (by rw [hr]; rfl), st.opening_cons_none ha, hr, ih,
        Option.map_map, Option.map_map]
      congr 1
      funext j
      simp only [Function.comp_apply, Opening.behind, List.cons_append, texts_cons m,
        List.append_assoc]

theorem advance_recorded (unit : υ) (called args : List Json.Value) :
    st.recorded.advance (unit, called) args = (st.advance unit args, called ++ args) := by
  induction args generalizing unit called with
  | nil => rw [List.append_nil]; rfl
  | cons a args ih =>
    have := ih (st.invoke unit a).2.1 (called ++ [a])
    rw [List.append_assoc] at this
    exact this

/-- Which source is the first to load depends on the loader alone. -/
theorem opening_congr {st st' : Strategy κ υ} (h : st.load = st'.load) (k : κ)
    (ms : List (Option Inbound)) : st.opening k ms = st'.opening k ms := by
  have ha : ∀ k m, st.attempt k m = st'.attempt k m := by
    intro k m
    rcases m with _ | (source | _ | _)
    · rfl
    · cases source with
      | string text => simp only [attempt, offer, h]
      | _ => rfl
    · rfl
    · rfl
  induction ms generalizing k with
  | nil => rfl
  | cons m ms ih => rw [opening, opening, ha]; simp only [ih]

/-- Some source loads exactly if there is one that the loader accepts after those in front. -/
theorem opening_isSome_iff {k : κ} {ms : List (Option Inbound)} :
    (st.opening k ms).isSome ↔ ∃ before text after unit,
      ms = before ++ some (.function (.string text)) :: after ∧
        (st.load (st.memory k before) text).1 = .ok unit := by
  constructor
  · intro h
    obtain ⟨j, hj⟩ := Option.isSome_iff_exists.1 h
    obtain ⟨h1, -, h2⟩ := st.opening_eq_some_iff.1 hj
    obtain ⟨text, ht, hl, -⟩ := st.attempt_eq_some h2
    exact ⟨j.before, text, j.after, j.unit, by rw [h1, ht], hl⟩
  · rintro ⟨before, text, after, unit, rfl, hl⟩
    rw [Option.isSome_iff_ne_none]
    intro hn
    have := st.opening_eq_none_iff.1 hn before _ after rfl
    rw [attempt, offer, hl] at this
    cases this

end Strategy

/-! ## Forgetting the records -/

/-- The phase with a function applied to its unit. -/
def Phase.map {υ' : Type v} (f : υ → υ') : Phase υ → Phase υ'
  | .loading => .loading
  | .serving unit => .serving (f unit)

/-- The worker without its records. -/
def forget (w : Worker (κ × List String) (υ × List Json.Value)) : Worker κ υ :=
  ⟨w.loader.1, w.asked, w.phase.map (·.1)⟩

/-- What handling a line comes to, without the records. -/
def Handled.forget (h : Handled (κ × List String) (υ × List Json.Value)) : Handled κ υ :=
  (h.1, h.2.1.forget, h.2.2)

/-- The setup with records of the calls. -/
def Setup.recorded (s : Setup κ υ) : Setup (κ × List String) (υ × List Json.Value) :=
  ⟨s.strategy.recorded, s.options, s.clock⟩

@[simp] theorem Setup.recorded_clock (s : Setup κ υ) : s.recorded.clock = s.clock := rfl

@[simp] theorem forget_asked (w : Worker (κ × List String) (υ × List Json.Value)) :
    w.forget.asked = w.asked := rfl

theorem forget_reply (w : Worker (κ × List String) (υ × List Json.Value)) (o : Outlets)
    (m : Outbound) : (reply w o m).forget = reply w.forget o m := by
  unfold reply
  rcases o.emit m with ⟨_ | _, _⟩ <;> rfl

namespace Setup

variable (s : Setup κ υ) (w : Worker (κ × List String) (υ × List Json.Value)) (o : Outlets)

theorem forget_load (source : Json.Value) :
    (s.recorded.load w source o).forget = s.load w.forget source o := by
  cases source with
  | string text =>
    simp only [load, recorded, Strategy.recorded, Worker.forget]
    cases (s.strategy.load w.loader.1 text).1 with
    | ok unit => exact forget_reply _ _ _
    | error e => exact forget_reply _ _ _
  | _ => exact forget_reply _ _ _

theorem forget_answer (unit : υ × List Json.Value) (argument : Json.Value) :
    (s.recorded.answer w unit argument o).forget = s.answer w.forget unit.1 argument o := by
  simp only [answer, recorded, Strategy.recorded]
  cases (s.strategy.invoke unit.1 argument).1 with
  | ok value => exact forget_reply _ _ _
  | error e =>
    cases s.options.onInvokeError with
    | crash => rfl
    | report => exact forget_reply _ _ _

theorem forget_serve (unit : υ × List Json.Value) (argument : Json.Value) :
    (s.recorded.serve w unit argument o).forget = s.serve w.forget unit.1 argument o := by
  unfold serve
  by_cases hl : s.options.requestLogging = true
  · have hr : s.recorded.options.requestLogging = true := hl
    rw [if_pos hl, if_pos hr]
    simp only [recorded_clock, forget_asked]
    cases s.clock (w.asked + 1) with
    | error cause => rfl
    | ok time =>
      simp only []
      rcases o.emit (.log ("received request: " ++ argument.render) time) with ⟨_ | _, o'⟩
      · rfl
      · exact s.forget_answer { w with asked := w.asked + 1 } o' unit argument
  · have hr : ¬s.recorded.options.requestLogging = true := hl
    rw [if_neg hl, if_neg hr]
    exact s.forget_answer w o unit argument

theorem forget_handleLine (line : String) :
    (s.recorded.handleLine w line o).forget = s.handleLine w.forget line o := by
  obtain ⟨k, n, phase⟩ := w
  simp only [handleLine]
  cases Inbound.parse line with
  | error e => cases phase <;> rfl
  | ok m =>
    cases m with
    | function source =>
      cases phase with
      | loading => exact s.forget_load _ o source
      | serving unit => rfl
    | request argument =>
      cases phase with
      | loading => rfl
      | serving unit => exact s.forget_serve _ o unit argument
    | other kind => cases phase <;> rfl

/-- **Records change nothing**: without them the recording worker is the worker. -/
theorem forget_handleLines (lines : List String) :
    s.handleLines w.forget o lines =
      ((s.recorded.handleLines w o lines).1.forget, (s.recorded.handleLines w o lines).2) := by
  induction lines generalizing w o with
  | nil => rfl
  | cons line lines ih =>
    have h := s.forget_handleLine w o line
    rw [handleLines_cons, handleLines_cons, ← ih, ← h]
    rfl

/-! ## The phase and the calls -/

/-- What the recording worker has come to after lines, and what it has called. -/
theorem handleLines_recorded (k : κ) (lines : List String) :
    let ms := lines.map Inbound.ofLine?
    let w := (s.recorded.handleLines (.fresh (k, [])) o lines).1
    match s.strategy.opening k ms with
    | none => w.loader.2 = texts ms ∧ w.phase = .loading
    | some j => w.loader.2 = texts (j.before ++ [j.line]) ∧ ∃ args,
        args.Sublist (requests j.after) ∧
          w.phase = .serving (s.strategy.advance j.unit args, args) := by
  intro ms w
  have h := s.recorded.handleLines_loading (w := .fresh (k, [])) rfl o lines
  have ho : s.recorded.strategy.opening (k, []) ms = _ := s.strategy.opening_recorded k [] ms
  have hm : s.recorded.strategy.memory (k, []) ms = _ := s.strategy.memory_recorded k [] ms
  simp only [Worker.fresh] at h
  rw [ho, hm] at h
  cases hj : s.strategy.opening k ms with
  | none =>
    rw [hj] at h
    exact ⟨congrArg Prod.snd h.1, h.2⟩
  | some j =>
    rw [hj] at h
    obtain ⟨h1, args, h2, h3⟩ := h
    refine ⟨congrArg Prod.snd h1, args, h2, ?_⟩
    have ha : s.recorded.strategy.advance (j.unit, []) args = _ :=
      s.strategy.advance_recorded j.unit [] args
    rw [ha] at h3
    exact h3

theorem isLoading_handleLines (k : κ) (lines : List String) :
    (s.handleLines (.fresh k) o lines).1.phase.isLoading =
      (s.strategy.opening k (lines.map Inbound.ofLine?)).isNone := by
  have h := s.handleLines_loading (w := .fresh k) rfl o lines
  simp only [Worker.fresh] at h ⊢
  cases hj : s.strategy.opening k (lines.map Inbound.ofLine?) with
  | none =>
    rw [hj] at h
    rw [h.2]
    rfl
  | some j =>
    rw [hj] at h
    obtain ⟨-, args, -, hp⟩ := h
    rw [hp]
    rfl

/-- **The phase under every fault.** Let a worker handle lines on any stream, with any clock, and go
on after failures. It serves exactly if the loader has accepted the text of a function message; the
loader is called once with each text up to there and never again; the unit is the one that this text
gave, called with requests behind it only; it stays so whatever lines come; and neither faults nor
options nor what calls come to have a say in the phase. -/
theorem phase_handleLines (s : Setup κ υ) (k : κ) (o : Outlets) (lines more : List String) :
    let ms := lines.map Inbound.ofLine?
    let r := s.recorded.handleLines (.fresh (k, [])) o lines
    let w := r.1
    s.handleLines (.fresh k) o lines = (w.forget, r.2) ∧
    (w.phase.isLoading = false ↔ ∃ before text after unit,
      ms = before ++ some (.function (.string text)) :: after ∧
        (s.strategy.load (s.strategy.memory k before) text).1 = .ok unit) ∧
    (match s.strategy.opening k ms with
      | none => w.loader.2 = texts ms ∧ w.phase = .loading
      | some j => w.loader.2 = texts (j.before ++ [j.line]) ∧ ∃ args,
          args.Sublist (requests j.after) ∧
            w.phase = .serving (s.strategy.advance j.unit args, args)) ∧
    (∀ unit args, w.phase = .serving (unit, args) →
      let w' := (s.recorded.handleLines (.fresh (k, [])) o (lines ++ more)).1
      w'.loader = w.loader ∧ ∃ added, added.Sublist (requests (more.map Inbound.ofLine?)) ∧
        w'.phase = .serving (s.strategy.advance unit added, args ++ added)) ∧
    ∀ invoke options clock o',
      (Setup.handleLines ⟨⟨s.strategy.load, invoke⟩, options, clock⟩ (.fresh k) o'
        lines).1.phase.isLoading = w.phase.isLoading := by
  intro ms r w
  have hf : s.handleLines (.fresh k) o lines = (w.forget, r.2) :=
    s.forget_handleLines (.fresh (k, [])) o lines
  have hw : w.phase.isLoading = (s.strategy.opening k ms).isNone := by
    have h := s.isLoading_handleLines o k lines
    rw [hf] at h
    rw [← h]
    simp only [Worker.forget]
    cases w.phase <;> rfl
  refine ⟨hf, ?_, s.handleLines_recorded o k lines, ?_, ?_⟩
  · rw [hw, ← s.strategy.opening_isSome_iff]
    cases s.strategy.opening k ms <;> simp
  · intro unit args hp
    rw [handleLines_append]
    obtain ⟨h1, added, h2, h3⟩ := s.recorded.handleLines_serving hp r.2 more
    have ha : s.recorded.strategy.advance (unit, args) added = _ :=
      s.strategy.advance_recorded unit args added
    exact ⟨h1, added, h2, by rw [h3, ha]⟩
  · intro invoke options clock o'
    have h : (⟨s.strategy.load, invoke⟩ : Strategy κ υ).opening k ms = s.strategy.opening k ms :=
      Strategy.opening_congr (by rfl) k ms
    rw [isLoading_handleLines, hw, ← h]

end Setup

end ScriptWorker.Worker
