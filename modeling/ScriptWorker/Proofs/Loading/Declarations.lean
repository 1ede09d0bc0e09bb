import Mathlib.Data.List.TakeDrop
import ScriptWorker.Loading.Signature

/-!
# Where a source declares a function

An `Occurrence` of a declaration is a place of a text, at a word boundary, where `function`, a name
and an opening parenthesis stand. What stands there tells the name (`declaration?_eq_some_iff`), so
an occurrence is known by its place (`Occurrence.eq_of_length`), and the search finds the one that
starts first (`findFrom_eq_some_iff`). Its parenthesis is the first one from there on, so the text
behind any other occurrence is part of the text behind it (`Occurrence.suffix_of_le`).
-/

set_option autoImplicit false

namespace ScriptWorker.Loading.Signature

/-! ## Declarations -/

/-- A name: a letter, an underscore or a dollar sign, then any of these and digits. -/
def IsName (name : List Char) : Prop :=
  ∃ c cs, name = c :: cs ∧ startsName c = true ∧ ∀ d ∈ cs, continuesName d = true

/-- The text is a declaration of the name, up to the parenthesis that opens its parameters. -/
def Declares (name decl : List Char) : Prop :=
  ∃ gap space, gap ≠ [] ∧ (∀ c ∈ gap, Text.isBlank c = true) ∧ IsName name ∧
    (∀ c ∈ space, Text.isBlank c = true) ∧ decl = keyword ++ (gap ++ (name ++ (space ++ ['('])))

theorem IsName.continues {name : List Char} (h : IsName name) :
    ∀ c ∈ name, continuesName c = true := by
  obtain ⟨c, cs, rfl, hc, hcs⟩ := h
  intro d hd
  rcases List.mem_cons.1 hd with rfl | hd
  · rw [continuesName, hc, Bool.true_or]
  · exact hcs d hd

/-- The characters of names are no blanks. -/
theorem not_isBlank_of_continuesName {c : Char} (h : continuesName c = true) :
    Text.isBlank c = false := by
  change ((((decide (65 ≤ c.toNat ∧ c.toNat ≤ 90) ||
    (decide (97 ≤ c.toNat) && decide (c.toNat ≤ 122))) || c == '_') || c == '$') ||
    (decide (48 ≤ c.toNat) && decide (c.toNat ≤ 57))) = true at h
  simp only [Bool.or_eq_true, Bool.and_eq_true, decide_eq_true_eq, beq_iff_eq] at h
  simp only [Text.isBlank, Bool.or_eq_false_iff, Bool.and_eq_false_iff, decide_eq_false_iff_not,
    beq_eq_false_iff_ne]
  rcases h with ((h | rfl) | rfl) | h
  · omega
  · decide
  · decide
  · omega

theorem not_continuesName_of_isBlank {c : Char} (h : Text.isBlank c = true) :
    continuesName c = false := by
  cases hc : continuesName c with
  | false => rfl
  | true => rw [not_isBlank_of_continuesName hc] at h; cases h

theorem after?_eq_some_iff {word s rest : List Char} :
    after? word s = some rest ↔ s = word ++ rest := by
  induction word generalizing s with
  | nil => simp [after?]
  | cons w word ih =>
    cases s with
    | nil => simp [after?]
    | cons c s =>
      rw [after?]
      by_cases hc : c = w
      · simp [hc, ih]
      · simp [hc]

/-- A span ends at the first character that does not belong to it. -/
theorem span_append {p : Char → Bool} {a b : List Char} (ha : ∀ c ∈ a, p c = true)
    (hb : ∀ c ∈ b.head?, p c = false) : (a ++ b).span p = (a, b) := by
  rw [List.span_eq_takeWhile_dropWhile, List.takeWhile_append_of_pos ha,
    List.dropWhile_append_of_pos ha]
  cases b with
  | nil => simp
  | cons c b => simp [hb c rfl]

theorem of_mem_takeWhile {p : Char → Bool} {s : List Char} {c : Char} (h : c ∈ s.takeWhile p) :
    p c = true :=
  List.all_eq_true.1 List.all_takeWhile c h

theorem exists_span (p : Char → Bool) (s : List Char) :
    ∃ a b, s.span p = (a, b) ∧ s = a ++ b ∧ ∀ c ∈ a, p c = true :=
  ⟨s.takeWhile p, s.dropWhile p, List.span_eq_takeWhile_dropWhile p s,
    List.takeWhile_append_dropWhile.symm, fun _ => of_mem_takeWhile⟩

/-- **What stands at a place tells the declaration there**, its name and the text behind it. -/
theorem declaration?_eq_some_iff {s name rest : List Char} :
    declaration? s = some (name, rest) ↔ ∃ decl, Declares name decl ∧ s = decl ++ rest := by
  constructor
  · intro h
    rw [declaration?] at h
    cases ha : after? keyword s with
    | none => rw [ha] at h; cases h
    | some s₁ =>
      obtain ⟨gap, s₂, hs₁, rfl, hgap⟩ := exists_span Text.isBlank s₁
      obtain ⟨name', s₃, hs₂, rfl, hname⟩ := exists_span continuesName s₂
      simp only [ha, hs₁, hs₂] at h
      split at h
      case h_2 => cases h
      case h_1 g gs first more behind hspace =>
        split at h
        case isFalse => cases h
        case isTrue hfirst =>
          obtain ⟨rfl, rfl⟩ := Prod.mk.inj (Option.some.inj h)
          have hs₃ : s₃ = s₃.takeWhile Text.isBlank ++ '(' :: behind := by
            rw [← hspace, List.takeWhile_append_dropWhile]
          refine ⟨_, ⟨g :: gs, s₃.takeWhile Text.isBlank, by simp, hgap,
            ⟨first, more, rfl, hfirst, fun d hd => hname d (List.mem_cons_of_mem _ hd)⟩,
            fun c => of_mem_takeWhile, rfl⟩, ?_⟩
          rw [after?_eq_some_iff.1 ha]
          simp only [List.append_assoc, List.singleton_append, ← hs₃]
  · rintro ⟨_, ⟨gap, space, hne, hgap, hname, hspace, rfl⟩, rfl⟩
    obtain ⟨g, gs, rfl⟩ := List.exists_cons_of_ne_nil hne
    have hcont := hname.continues
    obtain ⟨first, more, rfl, hfirst, -⟩ := hname
    have hs₁ : after? keyword
        (keyword ++ ((g :: gs) ++ (first :: more ++ (space ++ '(' :: rest)))) =
          some ((g :: gs) ++ (first :: more ++ (space ++ '(' :: rest))) :=
      after?_eq_some_iff.2 rfl
    have hs₂ : ((g :: gs) ++ (first :: more ++ (space ++ '(' :: rest))).span Text.isBlank =
        (g :: gs, first :: more ++ (space ++ '(' :: rest)) := by
      refine span_append hgap fun c hc => ?_
      cases hc
      exact not_isBlank_of_continuesName (hcont _ List.mem_cons_self)
    have hs₃ : (first :: more ++ (space ++ '(' :: rest)).span continuesName =
        (first :: more, space ++ '(' :: rest) := by
      refine span_append hcont fun c hc => ?_
      cases space with
      | nil => cases hc; decide
      | cons b space =>
        cases hc
        exact not_continuesName_of_isBlank (hspace _ List.mem_cons_self)
    have hs₄ : (space ++ '(' :: rest).dropWhile Text.isBlank = '(' :: rest := by
      rw [List.dropWhile_append_of_pos hspace]
      exact List.dropWhile_cons_of_neg (by decide)
    simp only [declaration?, List.append_assoc, List.singleton_append, hs₁, hs₂, hs₃,
      hs₄, hfirst, if_true]

/-- Two declarations in front of texts that are equal together are the same. -/
theorem Declares.unique {name name' decl decl' rest rest' : List Char} (h : Declares name decl)
    (h' : Declares name' decl') (he : decl ++ rest = decl' ++ rest') :
    name = name' ∧ decl = decl' ∧ rest = rest' := by
  have hd := declaration?_eq_some_iff.2 ⟨decl, h, he.symm⟩
  rw [declaration?_eq_some_iff.2 ⟨decl', h', rfl⟩] at hd
  obtain ⟨rfl, rfl⟩ := Prod.mk.inj (Option.some.inj hd)
  exact ⟨rfl, List.append_cancel_right he, rfl⟩

/-- A declaration ends with its only parenthesis. -/
theorem Declares.exists_init {name decl : List Char} (h : Declares name decl) :
    ∃ init, decl = init ++ ['('] ∧ '(' ∉ init := by
  obtain ⟨gap, space, -, hgap, hname, hspace, rfl⟩ := h
  refine ⟨keyword ++ (gap ++ (name ++ space)), by simp, ?_⟩
  have hblank : Text.isBlank '(' = false := by decide
  have hcont : continuesName '(' = false := by decide
  simp only [List.mem_append, not_or]
  refine ⟨by decide, fun hm => ?_, fun hm => ?_, fun hm => ?_⟩
  · rw [hgap _ hm] at hblank; cases hblank
  · rw [hname.continues _ hm] at hcont; cases hcont
  · rw [hspace _ hm] at hblank; cases hblank

/-! ## Occurrences -/

/-- A word starts or ends between the two texts. -/
def WordBoundary (before after : List Char) : Prop :=
  before.getLast?.any Text.isWord ≠ after.head?.any Text.isWord

/-- A place of a text where a declaration stands. -/
@[ext]
structure Occurrence (source : List Char) where
  before : List Char
  decl : List Char
  name : List Char
  after : List Char
  split : source = before ++ (decl ++ after)
  boundary : WordBoundary before (decl ++ after)
  declares : Declares name decl

namespace Occurrence

variable {source : List Char}

/-- No declaration starts in front of this one. -/
def IsFirst (o : Occurrence source) : Prop :=
  ∀ o' : Occurrence source, o.before.length ≤ o'.before.length

/-- An occurrence is known by its place. -/
theorem eq_of_length {o o' : Occurrence source} (h : o.before.length = o'.before.length) :
    o = o' := by
  obtain ⟨hb, hr⟩ := List.append_inj (o.split.symm.trans o'.split) h
  obtain ⟨hn, hd, ha⟩ := o.declares.unique o'.declares hr
  exact Occurrence.ext hb hd hn ha

/-- At most one occurrence is the first. -/
theorem IsFirst.unique {o o' : Occurrence source} (h : o.IsFirst) (h' : o'.IsFirst) : o = o' :=
  eq_of_length (Nat.le_antisymm (h o') (h' o))

/-- **The text behind a later occurrence is part of the text behind an earlier one.** -/
theorem suffix_of_le {o o' : Occurrence source} (h : o.before.length ≤ o'.before.length) :
    o'.after <:+ o.after := by
  obtain ⟨init, hd, hi⟩ := o.declares.exists_init
  obtain ⟨init', hd', -⟩ := o'.declares.exists_init
  have he := o.split.symm.trans o'.split
  rw [hd, hd'] at he
  obtain ⟨between, hb, hr⟩ : ∃ between, o'.before = o.before ++ between ∧
      init ++ '(' :: o.after = between ++ (init' ++ '(' :: o'.after) := by
    simp only [List.append_assoc, List.singleton_append] at he
    rcases List.append_eq_append_iff.1 he with ⟨m, hm, hr⟩ | ⟨m, hm, hr⟩
    · exact ⟨m, hm, hr⟩
    · have hlen := congrArg List.length hm
      rw [List.length_append] at hlen
      obtain rfl : m = [] := List.eq_nil_of_length_eq_zero (by omega)
      exact ⟨[], by simpa using hm.symm, by simpa using hr.symm⟩
  -- the first parenthesis of the text at `o` closes `init`, so that of `o'` is not in front of it
  rw [← List.append_assoc] at hr
  rcases List.append_eq_append_iff.1 hr with ⟨m, hm, hr⟩ | ⟨m, hm, hr⟩
  · cases m with
    | nil => exact ⟨[], by simpa using hr.symm⟩
    | cons c m =>
      obtain ⟨-, hr⟩ := List.cons.inj hr
      exact ⟨m ++ ['('], by simp [hr]⟩
  · cases m with
    | nil => exact ⟨[], by simpa using hr⟩
    | cons c m =>
      obtain ⟨rfl, -⟩ := List.cons.inj hr
      exact absurd (by simp [hm]) hi

end Occurrence

/-! ## Searching -/

/-- A declaration stands at a word boundary where the text in front does not end within a word. -/
theorem wordBoundary_iff {before name decl after : List Char} (h : Declares name decl) :
    WordBoundary before (decl ++ after) ↔ before.getLast?.any Text.isWord = false := by
  obtain ⟨gap, space, -, -, -, -, rfl⟩ := h
  have hf : Text.isWord 'f' = true := by decide
  simp [WordBoundary, keyword, hf]

/-- An occurrence that starts at a place is what is read there. -/
theorem Occurrence.here {source before s : List Char} (hs : source = before ++ s)
    (o : Occurrence source) (hl : o.before.length = before.length) :
    before.getLast?.any Text.isWord = false ∧ declaration? s = some (o.name, o.after) := by
  obtain ⟨hb, hr⟩ := List.append_inj (o.split.symm.trans hs) hl
  exact ⟨hb ▸ (wordBoundary_iff o.declares).1 o.boundary,
    declaration?_eq_some_iff.2 ⟨o.decl, o.declares, hr.symm⟩⟩

/-- What the search gives: the first of the occurrences behind `before`, or nothing if there is
none. -/
def FirstBehind (source before : List Char) : Option (List Char × List Char) → Prop
  | none => ∀ o : Occurrence source, o.before.length < before.length
  | some (name, rest) => ∃ o : Occurrence source, o.name = name ∧ o.after = rest ∧
      ∀ o' : Occurrence source, before.length ≤ o'.before.length →
        o.before.length ≤ o'.before.length

/-- **The search finds the occurrence that starts first** behind what has been passed. -/
theorem firstBehind_findFrom {source before s : List Char} (hs : source = before ++ s) :
    FirstBehind source before (findFrom (before.getLast?.any Text.isWord) s) := by
  induction s generalizing before with
  | nil =>
    intro o
    obtain ⟨init, hd, -⟩ := o.declares.exists_init
    have hl := congrArg List.length (hs.symm.trans o.split)
    simp only [hd, List.length_append, List.length_singleton, List.length_nil] at hl
    omega
  | cons c rest ih =>
    have hs' : source = (before ++ [c]) ++ rest := by rw [hs, List.append_assoc]; rfl
    have hlast : (before ++ [c]).getLast?.any Text.isWord = Text.isWord c := by simp
    have ih := ih hs'
    rw [hlast] at ih
    rw [findFrom]
    cases hh :
      if before.getLast?.any Text.isWord = true then none else declaration? (c :: rest) with
    | some found =>
      obtain ⟨name, after⟩ := found
      obtain ⟨hw, hd⟩ : before.getLast?.any Text.isWord = false ∧
          declaration? (c :: rest) = some (name, after) := by
        split at hh
        · cases hh
        · exact ⟨Bool.eq_false_iff.2 ‹_›, hh⟩
      obtain ⟨decl, hdecl, he⟩ := declaration?_eq_some_iff.1 hd
      exact ⟨⟨before, decl, name, after, by rw [hs, he], (wordBoundary_iff hdecl).2 hw, hdecl⟩,
        rfl, rfl, fun _ h => h⟩
    | none =>
      have hnot : ∀ o : Occurrence source, o.before.length ≠ before.length := by
        intro o hl
        obtain ⟨hw, hd⟩ := o.here hs hl
        rw [hw, hd] at hh
        cases hh
      have hnext : ∀ o : Occurrence source, before.length ≤ o.before.length →
          (before ++ [c]).length ≤ o.before.length := by
        intro o hl
        have := hnot o
        simp only [List.length_append, List.length_singleton]
        omega
      cases hf : findFrom (Text.isWord c) rest with
      | none =>
        rw [hf] at ih
        intro o
        have := hnext o
        have := ih o
        omega
      | some found =>
        obtain ⟨name, after⟩ := found
        rw [hf] at ih
        obtain ⟨o, hn, ha, hmin⟩ := ih
        exact ⟨o, hn, ha, fun o' hl => hmin o' (hnext o' hl)⟩

theorem firstBehind_find (source : List Char) : FirstBehind source [] (findFrom false source) :=
  @firstBehind_findFrom source [] source rfl

section

variable {source : List Char}

/-- Nothing is found just if there is no occurrence. -/
theorem findFrom_eq_none_iff : findFrom false source = none ↔ IsEmpty (Occurrence source) := by
  have hf := firstBehind_find source
  constructor
  · intro h
    rw [h] at hf
    exact ⟨fun o => Nat.not_lt_zero _ (hf o)⟩
  · intro h
    cases hs : findFrom false source with
    | none => rfl
    | some found =>
      rw [hs] at hf
      obtain ⟨o, -⟩ := hf
      exact (h.false o).elim

/-- **The first occurrence is the one that is found** in the whole text. -/
theorem findFrom_eq_some_iff {name rest : List Char} :
    findFrom false source = some (name, rest) ↔
      ∃ o : Occurrence source, o.IsFirst ∧ o.name = name ∧ o.after = rest := by
  have hf := firstBehind_find source
  constructor
  · intro h
    rw [h] at hf
    obtain ⟨o, hn, ha, hmin⟩ := hf
    exact ⟨o, fun o' => hmin o' (Nat.zero_le _), hn, ha⟩
  · rintro ⟨o, ho, rfl, rfl⟩
    cases hs : findFrom false source with
    | none => exact ((findFrom_eq_none_iff.1 hs).false o).elim
    | some found =>
      obtain ⟨name, rest⟩ := found
      rw [hs] at hf
      obtain ⟨o', rfl, rfl, hmin⟩ := hf
      have hfirst : o'.IsFirst := fun o'' => hmin o'' (Nat.zero_le _)
      rw [hfirst.unique ho]

/-- If there is an occurrence, one of them is the first. -/
theorem exists_isFirst (o : Occurrence source) : ∃ o : Occurrence source, o.IsFirst := by
  cases hs : findFrom false source with
  | none => exact ((findFrom_eq_none_iff.1 hs).false o).elim
  | some found =>
    obtain ⟨o, ho, -⟩ := findFrom_eq_some_iff.1 hs
    exact ⟨o, ho⟩

end

end ScriptWorker.Loading.Signature
