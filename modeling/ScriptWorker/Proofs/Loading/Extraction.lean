import ScriptWorker.Proofs.Loading.Declarations

/-!
# Taking a source apart

A `Cut` of the text behind a declaration is its only division into a parameter list, a gap, a body
and a tail, at the first `)`, the first `{` behind that and the last `}`. Reading gives that
division (`readBehind_eq_ok_iff`) and otherwise says which of the three is missing, so a source is
taken apart at its first declaration (`extract_decomposition`). A cut behind a later declaration
gives one behind the first that ends at the same `}`, so no source is lost because the search does
not go on (`extract_of_later`).
-/

set_option autoImplicit false

namespace ScriptWorker.Loading.Signature

/-! ## First and last characters -/

section

variable {c : Char} {a b : List Char}

theorem span_first (h : c ∉ a) (b : List Char) :
    (a ++ c :: b).span (· != c) = (a, c :: b) :=
  span_append (fun d hd => bne_iff_ne.2 (ne_of_mem_of_not_mem hd h))
    (by intro d hd; cases hd; simp)

theorem span_eq_self (h : c ∉ a) : a.span (· != c) = (a, []) := by
  have hs := span_append (p := (· != c)) (a := a) (b := [])
    (fun d hd => bne_iff_ne.2 (ne_of_mem_of_not_mem hd h)) (by rintro d ⟨⟩)
  rwa [List.append_nil] at hs

theorem dropWhile_first (h : c ∉ a) (b : List Char) :
    (a ++ c :: b).dropWhile (· != c) = c :: b := by
  have hs := span_first h b
  rw [List.span_eq_takeWhile_dropWhile] at hs
  exact (Prod.mk.inj hs).2

theorem dropWhile_eq_nil (h : c ∉ a) : a.dropWhile (· != c) = [] := by
  have hs := span_eq_self h
  rw [List.span_eq_takeWhile_dropWhile] at hs
  exact (Prod.mk.inj hs).2

theorem first_inj {a' b' : List Char} (h : c ∉ a) (h' : c ∉ a') (he : a ++ c :: b = a' ++ c :: b') :
    a = a' ∧ b = b' := by
  have hs := span_first h b
  rw [he, span_first h' b'] at hs
  obtain ⟨ha, hb⟩ := Prod.mk.inj hs
  exact ⟨ha.symm, (List.cons.inj hb).2.symm⟩

theorem last_inj {a' b' : List Char} (h : c ∉ b) (h' : c ∉ b') (he : a ++ c :: b = a' ++ c :: b') :
    a = a' ∧ b = b' := by
  have hr := congrArg List.reverse he
  simp only [List.reverse_append, List.reverse_cons, List.append_assoc, List.singleton_append] at hr
  obtain ⟨hb, ha⟩ := first_inj (by simpa using h) (by simpa using h') hr
  exact ⟨List.reverse_inj.1 ha, List.reverse_inj.1 hb⟩

/-- What stands behind some occurrence of a character stands behind the first one. -/
theorem exists_first (c : Char) (a b : List Char) :
    ∃ front between, a ++ c :: b = front ++ c :: (between ++ b) ∧ c ∉ front := by
  obtain ⟨front, between, he, hc⟩ :=
    List.eq_append_cons_of_mem (List.mem_append_right a (List.mem_singleton_self c))
  refine ⟨front, between, ?_, hc⟩
  rw [← List.singleton_append, ← List.append_assoc, he, List.append_assoc, List.cons_append]

/-- What stands in front of some occurrence of a character stands in front of the last one. -/
theorem exists_last (c : Char) (a b : List Char) :
    ∃ between tail, a ++ c :: b = (a ++ between) ++ c :: tail ∧ c ∉ tail := by
  obtain ⟨front, between, he, hc⟩ := exists_first c b.reverse a.reverse
  refine ⟨between.reverse, front.reverse, ?_, by simpa using hc⟩
  have hr := congrArg List.reverse he
  simpa using hr

end

/-! ## Bodies -/

/-- The body lies between the first `{` and the last `}`. -/
theorem bracedBody?_eq_some_iff {s body : List Char} :
    bracedBody? s = some body ↔ ∃ gap tail, s = gap ++ '\x7b' :: (body ++ '\x7d' :: tail) ∧
      '\x7b' ∉ gap ∧ '\x7d' ∉ tail := by
  constructor
  · intro h
    by_cases hopen : '\x7b' ∈ s
    case neg => rw [bracedBody?, dropWhile_eq_nil hopen] at h; cases h
    obtain ⟨gap, inner, rfl, hgap⟩ := List.eq_append_cons_of_mem hopen
    rw [bracedBody?, dropWhile_first hgap] at h
    by_cases hclose : '\x7d' ∈ inner.reverse
    case neg => simp only [dropWhile_eq_nil hclose] at h; cases h
    obtain ⟨tail, body', he, htail⟩ := List.eq_append_cons_of_mem hclose
    simp only [he, dropWhile_first htail, Option.some.injEq] at h
    refine ⟨gap, tail.reverse, ?_, hgap, by simpa using htail⟩
    have hi := congrArg List.reverse he
    rw [List.reverse_reverse] at hi
    simp [hi, ← h]
  · rintro ⟨gap, tail, rfl, hgap, htail⟩
    have hr : (body ++ '\x7d' :: tail).reverse = tail.reverse ++ '\x7d' :: body.reverse := by simp
    simp only [bracedBody?, dropWhile_first hgap, hr,
      dropWhile_first (show '\x7d' ∉ tail.reverse by simpa using htail), List.reverse_reverse]

/-! ## Parameters -/

/-- The parameters of a list: none if it is blank, and otherwise what stands between its commas,
without the blanks. -/
structure ParametersOf (raw : List Char) (params : List String) : Prop where
  blank : (∀ c ∈ raw, Text.isBlank c = true) → params = []
  joined : (∃ c ∈ raw, Text.isBlank c = false) →
    [','].intercalate (params.map String.toList) = raw.filter (!Text.isBlank ·)
  counted : (∃ c ∈ raw, Text.isBlank c = false) → params.length = raw.count ',' + 1
  separate : ∀ p ∈ params, ',' ∉ p.toList

theorem length_splitOn (c : Char) (s : List Char) : (s.splitOn c).length = s.count c + 1 := by
  induction s with
  | nil => rfl
  | cons d s ih =>
    rw [List.splitOn_eq_splitOnP] at ih ⊢
    rw [List.splitOnP_cons_eq_if_modifyHead, List.count_cons]
    split
    · rw [List.length_cons, ih]
    · rw [List.length_modifyHead, ih]

theorem not_mem_of_mem_splitOn {c : Char} {s p : List Char} (h : p ∈ s.splitOn c) : c ∉ p := by
  induction s generalizing p with
  | nil =>
    obtain rfl : p = [] := by simpa using h
    exact List.not_mem_nil
  | cons d s ih =>
    rw [List.splitOn_eq_splitOnP] at ih h
    rw [List.splitOnP_cons_eq_if_modifyHead] at h
    split at h
    case isTrue =>
      rcases List.mem_cons.1 h with rfl | h
      · exact List.not_mem_nil
      · exact ih h
    case isFalse hd =>
      obtain ⟨q, qs, hq⟩ := List.exists_cons_of_ne_nil (List.splitOnP_ne_nil (· == c) s)
      rw [hq] at ih h
      rcases List.mem_cons.1 h with rfl | h
      · have hdc : c ≠ d := fun he => hd (beq_iff_eq.2 he.symm)
        exact fun hm => (List.mem_cons.1 hm).elim hdc (ih List.mem_cons_self)
      · exact ih (List.mem_cons_of_mem _ h)

/-- **The parameters that are read** are those of the list. -/
theorem parametersOf_iff {raw : List Char} {params : List String} :
    ParametersOf raw params ↔ params = splitParams raw := by
  have hcompact : raw.filter (!Text.isBlank ·) = [] ↔ ∀ c ∈ raw, Text.isBlank c = true := by
    simp [List.filter_eq_nil_iff]
  by_cases hb : ∀ c ∈ raw, Text.isBlank c = true
  · have hs : splitParams raw = [] := by rw [splitParams, hcompact.2 hb]
    rw [hs]
    refine ⟨fun h => h.blank hb, ?_⟩
    rintro rfl
    have hno : ¬∃ c ∈ raw, Text.isBlank c = false := by
      rintro ⟨c, hc, hn⟩
      rw [hb c hc] at hn
      cases hn
    exact ⟨fun _ => rfl, fun h => (hno h).elim, fun h => (hno h).elim, by simp⟩
  · have hs : splitParams raw =
        ((raw.filter (!Text.isBlank ·)).splitOn ',').map String.ofList := by
      unfold splitParams
      split
      case h_1 he => exact absurd (hcompact.1 he) hb
      case h_2 => rfl
    have hsome : ∃ c ∈ raw, Text.isBlank c = false := by simpa using hb
    rw [hs]
    constructor
    · intro h
      have hne : params.map String.toList ≠ [] := by
        intro he
        have hc := h.counted hsome
        rw [← List.length_map (f := String.toList), he] at hc
        cases hc
      rw [← h.joined hsome, List.splitOn_intercalate ',' (by simpa using h.separate) hne]
      simp
    · rintro rfl
      refine ⟨fun h => absurd h hb, fun _ => ?_, fun _ => ?_, ?_⟩
      · simp [List.intercalate_splitOn]
      · rw [List.length_map, length_splitOn, List.count_filter (by decide)]
      · intro p hp
        obtain ⟨q, hq, rfl⟩ := List.mem_map.1 hp
        rw [String.toList_ofList]
        exact not_mem_of_mem_splitOn hq

/-! ## The text behind a declaration -/

/-- A division of the text behind a declaration: the first `)` ends the parameters, the first `{`
behind it starts the body, and the last `}` ends it. -/
@[ext]
structure Cut (after : List Char) where
  raw : List Char
  gap : List Char
  body : List Char
  tail : List Char
  split : after = raw ++ ')' :: (gap ++ '\x7b' :: (body ++ '\x7d' :: tail))
  first_close : ')' ∉ raw
  first_open : '\x7b' ∉ gap
  last_close : '\x7d' ∉ tail

namespace Cut

variable {after : List Char}

/-- There is at most one such division. -/
theorem unique (c c' : Cut after) : c = c' := by
  obtain ⟨hraw, hr⟩ := first_inj c.first_close c'.first_close (c.split.symm.trans c'.split)
  obtain ⟨hgap, hr⟩ := first_inj c.first_open c'.first_open hr
  obtain ⟨hbody, htail⟩ := last_inj c.last_close c'.last_close hr
  exact Cut.ext hraw hgap hbody htail

theorem mem_close (c : Cut after) : ')' ∈ after := by
  rw [c.split]
  exact List.mem_append_right _ List.mem_cons_self

/-- What the division of the text behind a declaration of the name says. -/
def signature (c : Cut after) (name : List Char) : Signature :=
  ⟨String.ofList name, splitParams c.raw, String.ofList c.body⟩

/-- A `)`, a `{` behind the first such and a `}` behind that make a division possible. -/
theorem exists_of_follows {raw gap inner tail : List Char}
    (h : after = raw ++ ')' :: (gap ++ '\x7b' :: (inner ++ '\x7d' :: tail)))
    (hraw : ')' ∉ raw) : Nonempty (Cut after) := by
  obtain ⟨gap', between, hg, hgap⟩ := exists_first '\x7b' gap (inner ++ '\x7d' :: tail)
  obtain ⟨more, tail', ht, htail⟩ := exists_last '\x7d' (between ++ inner) tail
  refine ⟨⟨raw, gap', between ++ inner ++ more, tail', ?_, hraw, hgap, htail⟩⟩
  rw [h, hg, ← List.append_assoc between, ht]

/-- **Text in front of a divided text** moves the first two marks at most forward and keeps the
last one. -/
theorem exists_of_suffix (c : Cut after) {text : List Char} (h : after <:+ text) :
    ∃ c' : Cut text, c'.tail = c.tail ∧ c.body <:+ c'.body := by
  obtain ⟨front, rfl⟩ := h
  obtain ⟨raw, gap, body, tail, rfl, -, -, htail⟩ := c
  obtain ⟨raw', between, hr, hraw⟩ := exists_first ')' (front ++ raw)
    (gap ++ '\x7b' :: (body ++ '\x7d' :: tail))
  obtain ⟨gap', between', hg, hgap⟩ := exists_first '\x7b' (between ++ gap)
    (body ++ '\x7d' :: tail)
  refine ⟨⟨raw', gap', between' ++ body, tail, ?_, hraw, hgap, htail⟩, rfl, List.suffix_append _ _⟩
  rw [← List.append_assoc, hr, ← List.append_assoc between, hg, List.append_assoc between']

end Cut

/-- What reading gives: the division of the text, or what is missing for one. -/
theorem readBehind_cases (name after : List Char) :
    (')' ∉ after ∧
      readBehind name after = .error (.unterminatedParameters (String.ofList name))) ∨
    (')' ∈ after ∧ IsEmpty (Cut after) ∧
      readBehind name after = .error (.missingBody (String.ofList name))) ∨
    ∃ c : Cut after, readBehind name after = .ok (c.signature name) := by
  by_cases hclose : ')' ∈ after
  case neg => exact .inl ⟨hclose, by simp only [readBehind, span_eq_self hclose]⟩
  obtain ⟨raw, rest, he, hraw⟩ := List.eq_append_cons_of_mem hclose
  cases hb : bracedBody? rest with
  | none =>
    refine .inr (.inl ⟨hclose, ⟨fun c => ?_⟩, by simp only [readBehind, he, span_first hraw, hb]⟩)
    obtain ⟨-, hr⟩ := first_inj hraw c.first_close (he.symm.trans c.split)
    rw [bracedBody?_eq_some_iff.2 ⟨c.gap, c.tail, hr, c.first_open, c.last_close⟩] at hb
    cases hb
  | some body =>
    obtain ⟨gap, tail, rfl, hgap, htail⟩ := bracedBody?_eq_some_iff.1 hb
    exact .inr (.inr ⟨⟨raw, gap, body, tail, he, hraw, hgap, htail⟩,
      by simp only [readBehind, he, span_first hraw, hb, Cut.signature]⟩)

section

variable {name after : List Char}

/-- **Reading gives the division of the text.** -/
theorem readBehind_eq_ok_iff {sig : Signature} :
    readBehind name after = .ok sig ↔ ∃ c : Cut after, sig = c.signature name := by
  rcases readBehind_cases name after with ⟨hc, hr⟩ | ⟨-, hc, hr⟩ | ⟨c, hr⟩
  · rw [hr]
    constructor
    · intro h
      cases h
    · rintro ⟨c, -⟩
      exact (hc c.mem_close).elim
  · rw [hr]
    constructor
    · intro h
      cases h
    · rintro ⟨c, -⟩
      exact (hc.false c).elim
  · rw [hr]
    constructor
    · intro h
      exact ⟨c, (Except.ok.inj h).symm⟩
    · rintro ⟨c', rfl⟩
      rw [c.unique c']

/-- The parameters do not end just if there is no `)`. -/
theorem readBehind_eq_unterminated_iff {n : String} :
    readBehind name after = .error (.unterminatedParameters n) ↔
      n = String.ofList name ∧ ')' ∉ after := by
  rcases readBehind_cases name after with ⟨hc, hr⟩ | ⟨hc, -, hr⟩ | ⟨c, hr⟩
  · simp [hr, hc, eq_comm]
  · simp [hr, hc]
  · simp [hr, c.mem_close]

/-- The body is missing just if there is a `)` but no division. -/
theorem readBehind_eq_missingBody_iff {n : String} :
    readBehind name after = .error (.missingBody n) ↔
      n = String.ofList name ∧ ')' ∈ after ∧ IsEmpty (Cut after) := by
  rcases readBehind_cases name after with ⟨hc, hr⟩ | ⟨hc, he, hr⟩ | ⟨c, hr⟩
  · simp [hr, hc]
  · simp [hr, hc, he, eq_comm]
  · have he : ¬IsEmpty (Cut after) := fun h => h.false c
    simp [hr, he]

end

/-! ## Whole sources -/

section

variable {source : String}

theorem extract_of_isEmpty (h : IsEmpty (Occurrence source.toList)) :
    extract source = .error .missingDeclaration := by
  rw [extract, findFrom_eq_none_iff.2 h]

/-- The first declaration is the one that is taken apart. -/
theorem extract_of_isFirst {o : Occurrence source.toList} (h : o.IsFirst) :
    extract source = readBehind o.name o.after := by
  rw [extract, findFrom_eq_some_iff.2 ⟨o, h, rfl, rfl⟩]

/-- **Statements about the result for the first declaration** are statements about the result. -/
theorem extract_eq_iff {r : Except ConversionError Signature}
    (hr : r ≠ .error .missingDeclaration) :
    extract source = r ↔
      ∃ o : Occurrence source.toList, o.IsFirst ∧ readBehind o.name o.after = r := by
  constructor
  · intro h
    by_cases he : IsEmpty (Occurrence source.toList)
    · exact absurd (h.symm.trans (extract_of_isEmpty he)) hr
    · obtain ⟨o⟩ : Nonempty (Occurrence source.toList) :=
        Classical.byContradiction fun hn => he ⟨fun o => hn ⟨o⟩⟩
      obtain ⟨o, ho⟩ := exists_isFirst o
      exact ⟨o, ho, (extract_of_isFirst ho).symm.trans h⟩
  · rintro ⟨o, ho, rfl⟩
    exact extract_of_isFirst ho

theorem readBehind_ne_missingDeclaration (name after : List Char) :
    readBehind name after ≠ .error .missingDeclaration := by
  rcases readBehind_cases name after with ⟨-, hr⟩ | ⟨-, -, hr⟩ | ⟨c, hr⟩
  all_goals rw [hr]; simp

theorem extract_eq_missingDeclaration_iff :
    extract source = .error .missingDeclaration ↔ IsEmpty (Occurrence source.toList) := by
  refine ⟨fun h => ⟨fun o => ?_⟩, extract_of_isEmpty⟩
  obtain ⟨o, ho⟩ := exists_isFirst o
  exact readBehind_ne_missingDeclaration _ _ ((extract_of_isFirst ho).symm.trans h)

theorem signature_eq_iff {after name : List Char} {c : Cut after} {sig : Signature} :
    sig = c.signature name ↔ sig.name = String.ofList name ∧ sig.body = String.ofList c.body ∧
      ParametersOf c.raw sig.params := by
  obtain ⟨n, params, body⟩ := sig
  rw [parametersOf_iff, Cut.signature, Signature.mk.injEq]
  exact ⟨fun ⟨hn, hp, hb⟩ => ⟨hn, hb, hp⟩, fun ⟨hn, hb, hp⟩ => ⟨hn, hp, hb⟩⟩

end

/-- **A source is taken apart at its first declaration.** There is a single first occurrence of a
declaration if there is any, and at most one division of the text behind it. The source gives a
signature just if both exist, and then it holds the name, the body as it stands and the parameters
of the list. Otherwise the error says what is missing: a declaration, the `)`, or the braces. -/
theorem extract_decomposition (source : String) :
    ((∃! o : Occurrence source.toList, o.IsFirst) ↔ Nonempty (Occurrence source.toList)) ∧
    (∀ after, Subsingleton (Cut after)) ∧
    ((∃ sig, extract source = .ok sig) ↔
      ∃ o : Occurrence source.toList, o.IsFirst ∧ Nonempty (Cut o.after)) ∧
    (∀ sig, extract source = .ok sig ↔
      ∃ o : Occurrence source.toList, o.IsFirst ∧ ∃ c : Cut o.after,
        sig.name = String.ofList o.name ∧ sig.body = String.ofList c.body ∧
          ParametersOf c.raw sig.params) ∧
    (extract source = .error .missingDeclaration ↔ IsEmpty (Occurrence source.toList)) ∧
    (∀ name, extract source = .error (.unterminatedParameters name) ↔
      ∃ o : Occurrence source.toList, o.IsFirst ∧ name = String.ofList o.name ∧ ')' ∉ o.after) ∧
    ∀ name, extract source = .error (.missingBody name) ↔
      ∃ o : Occurrence source.toList, o.IsFirst ∧ name = String.ofList o.name ∧ ')' ∈ o.after ∧
        IsEmpty (Cut o.after) := by
  have hok : ∀ sig, extract source = .ok sig ↔
      ∃ o : Occurrence source.toList, o.IsFirst ∧ ∃ c : Cut o.after, sig = c.signature o.name := by
    intro sig
    simp only [extract_eq_iff (r := .ok sig) nofun, readBehind_eq_ok_iff]
  refine ⟨⟨fun ⟨o, _⟩ => ⟨o⟩, ?_⟩, fun after => ⟨Cut.unique⟩, ⟨?_, ?_⟩, fun sig => ?_,
    extract_eq_missingDeclaration_iff, fun name => ?_, fun name => ?_⟩
  · rintro ⟨o⟩
    obtain ⟨o, ho⟩ := exists_isFirst o
    exact ⟨o, ho, fun o' ho' => ho'.unique ho⟩
  · rintro ⟨sig, h⟩
    obtain ⟨o, ho, c, -⟩ := (hok sig).1 h
    exact ⟨o, ho, ⟨c⟩⟩
  · rintro ⟨o, ho, ⟨c⟩⟩
    exact ⟨_, (hok _).2 ⟨o, ho, c, rfl⟩⟩
  · simp only [hok, signature_eq_iff]
  · simp only [extract_eq_iff (r := .error (.unterminatedParameters name)) nofun,
      readBehind_eq_unterminated_iff]
  · simp only [extract_eq_iff (r := .error (.missingBody name)) nofun,
      readBehind_eq_missingBody_iff]

/-- **No source is lost because the search stops at the first declaration.** If the text behind any
declaration has a `)`, behind the first such a `{`, and behind that a `}`, then the source gives a
signature; so where the source gives none, reading at no declaration does. What reading at another
one gives has a body that ends at the same `}` as the body of the first. -/
theorem extract_of_later (source : String) (o : Occurrence source.toList) :
    (∀ raw gap inner tail : List Char,
      o.after = raw ++ ')' :: (gap ++ '\x7b' :: (inner ++ '\x7d' :: tail)) → ')' ∉ raw →
      ∃ sig, extract source = .ok sig) ∧
    (∀ e, extract source = .error e → ∃ e', readBehind o.name o.after = .error e') ∧
    ∀ sig, readBehind o.name o.after = .ok sig →
      ∃ first : Occurrence source.toList, first.IsFirst ∧
        ∃ (c : Cut first.after) (c' : Cut o.after),
          extract source = .ok (c.signature first.name) ∧ sig = c'.signature o.name ∧
          c.tail = c'.tail ∧ c'.body <:+ c.body := by
  obtain ⟨first, hfirst⟩ := exists_isFirst o
  have hcut : ∀ c' : Cut o.after, ∃ c : Cut first.after,
      extract source = .ok (c.signature first.name) ∧ c.tail = c'.tail ∧ c'.body <:+ c.body := by
    intro c'
    obtain ⟨c, ht, hb⟩ := c'.exists_of_suffix (Occurrence.suffix_of_le (hfirst o))
    exact ⟨c, (extract_of_isFirst hfirst).trans (readBehind_eq_ok_iff.2 ⟨c, rfl⟩), ht, hb⟩
  refine ⟨?_, ?_, ?_⟩
  · intro raw gap inner tail he hraw
    obtain ⟨c'⟩ := Cut.exists_of_follows he hraw
    obtain ⟨c, hok, -⟩ := hcut c'
    exact ⟨_, hok⟩
  · intro e he
    cases hr : readBehind o.name o.after with
    | error e' => exact ⟨e', rfl⟩
    | ok sig =>
      obtain ⟨c', -⟩ := readBehind_eq_ok_iff.1 hr
      obtain ⟨c, hok, -⟩ := hcut c'
      rw [hok] at he
      cases he
  · intro sig hr
    obtain ⟨c', hs⟩ := readBehind_eq_ok_iff.1 hr
    obtain ⟨c, hok, ht, hb⟩ := hcut c'
    exact ⟨first, hfirst, c, c', hok, hs, ht, hb⟩

/-- A declaration among the parameters of another one: what is read there and what the source gives
end at the same `}`. -/
theorem extract_of_later_parameter :
    let source := "function a(function b(x) \x7b return \x7b\x7d \x7d"
    ∃ o : Occurrence source.toList,
      readBehind o.name o.after = .ok ⟨"b", ["x"], " return \x7b\x7d "⟩ ∧
      (∃ sig, extract source = .ok sig) ∧
      ∃ first : Occurrence source.toList, first.IsFirst ∧
        ∃ (c : Cut first.after) (c' : Cut o.after), c.tail = c'.tail ∧ c'.body <:+ c.body := by
  intro source
  let o : Occurrence source.toList :=
    { before := "function a(".toList
      decl := "function b(".toList
      name := ['b']
      after := "x) \x7b return \x7b\x7d \x7d".toList
      split := by decide
      boundary := by unfold WordBoundary; decide
      declares := ⟨[' '], [], by decide, List.all_eq_true.1 rfl, ⟨'b', [], rfl, rfl,
        List.forall_mem_nil _⟩, List.forall_mem_nil _, rfl⟩ }
  have hread : readBehind o.name o.after = .ok ⟨"b", ["x"], " return \x7b\x7d "⟩ := by rfl
  obtain ⟨hok, -, htail⟩ := extract_of_later source o
  obtain ⟨first, hfirst, c, c', -, -, ht, hb⟩ := htail _ hread
  exact ⟨o, hread,
    hok ['x'] [' '] " return \x7b\x7d ".toList [] (by decide) (by decide),
    first, hfirst, c, c', ht, hb⟩

end ScriptWorker.Loading.Signature
