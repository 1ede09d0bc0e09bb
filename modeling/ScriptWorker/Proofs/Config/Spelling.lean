import Mathlib.Data.List.Nodup
import ScriptWorker.Proofs.Config.Precedence
import ScriptWorker.Proofs.Json.Strings
import ScriptWorker.Proofs.Loading.Extraction

/-!
# How the names of choices may be spelt

A setting that takes one of a few names (`Setting.choice?`) is read in two ways. The command line
takes a name in any ASCII case (`ofFlag?_eq_some_iff`, `read_flagged`); the environment, files and
JSON take it as the choice has it (`ofName?_eq_some_iff`), which is in lower case. So the two ways
agree on a text just if it is no name in another case (`spelling`), and there are such texts
(`recased_refused`). A setting's text may stand at the end of any command line (`read_word`).
-/

set_option autoImplicit false

namespace ScriptWorker.Config

/-! ## Names -/

theorem map_toLower {s t : String} (h : s.toList.map Char.toLower = t.toList) :
    s.map Char.toLower = t := by
  rw [← String.toList_inj, String.toList_map, h]

namespace Choice

variable {α : Type} {c : Choice α}

/-- The names are in lower case, and none of them stands for two values. -/
structure Plain (c : Choice α) : Prop where
  lower : ∀ e ∈ c.names, e.1.map Char.toLower = e.1
  nodup : (c.names.map (·.1)).Nodup

theorem find?_names (hn : (c.names.map (·.1)).Nodup) {p : String → Bool} {name : String}
    (hp : ∀ e ∈ c.names, p e.1 = true ↔ e.1 = name) (a : α) :
    (c.names.find? fun e => p e.1).map (·.2) = some a ↔ (name, a) ∈ c.names := by
  have found : ∀ {e}, c.names.find? (fun e => p e.1) = some e → e ∈ c.names ∧ e.1 = name := by
    intro e he
    have hmem := List.mem_of_find?_eq_some he
    have hpe : p e.1 = true := by simpa using List.find?_some he
    exact ⟨hmem, (hp e hmem).1 hpe⟩
  rw [Option.map_eq_some_iff]
  constructor
  · rintro ⟨e, he, rfl⟩
    obtain ⟨hmem, rfl⟩ := found he
    exact hmem
  · intro hmem
    cases hf : c.names.find? fun e => p e.1 with
    | none =>
      have hno := List.find?_eq_none.1 hf _ hmem
      exact absurd ((hp _ hmem).2 rfl) hno
    | some e =>
      obtain ⟨he, hname⟩ := found hf
      -- two entries of one name are one
      have hsame : e = (name, a) := List.inj_on_of_nodup_map hn he hmem hname
      exact ⟨e, rfl, hsame ▸ rfl⟩

/-- **A flag's text stands for the value whose name it is in lower case.** -/
theorem ofFlag?_eq_some_iff (hc : c.Plain) (t : String) (a : α) :
    c.ofFlag? t = some a ↔ (t.map Char.toLower, a) ∈ c.names := by
  refine find?_names (p := fun name => name.map Char.toLower == t.map Char.toLower) hc.nodup ?_ a
  intro e he
  rw [beq_iff_eq, hc.lower e he]

/-- **A name stands for its value as it is written.** -/
theorem ofName?_eq_some_iff (hc : c.Plain) (t : String) (a : α) :
    c.ofName? t = some a ↔ (t, a) ∈ c.names :=
  find?_names (p := (· == t)) hc.nodup (fun _ _ => beq_iff_eq) a

theorem ofValue_string_eq_ok_iff (t : String) (a : α) :
    c.ofValue (.string t) = .ok a ↔ c.ofName? t = some a := by
  rw [ofValue, ofKnown]
  cases c.ofName? t <;> simp

/-- In JSON text a string stands for what it stands for elsewhere. -/
theorem readChoice_string (c : Choice α) {size : Nat} (depth : Nat) {t : String}
    (ht : t.length < size) (rest : List Char) (a : α) :
    Json.readChoice size depth c.names ((Json.stringText t).toList ++ rest) = .ok (a, rest) ↔
      c.ofName? t = some a := by
  have htext : (Json.stringText t).toList ++ rest =
      '"' :: (t.toList.flatMap Json.escapeChar ++ '"' :: rest) := by
    simp [Json.toList_stringText]
  have hread := Json.readStringFrom_escaped t.toList (by rwa [String.length_toList]) [] rest
  rw [List.reverse_nil, List.nil_append, String.ofList_toList] at hread
  rw [htext]
  show (Json.readStringFrom size [] _).bind (fun r => Json.chooseName c.names r.1 r.2) = _ ↔ _
  rw [hread]
  show Json.chooseName c.names t rest = _ ↔ _
  rw [Json.chooseName, ofName?]
  cases c.names.find? fun e => e.1 == t with
  | none => simp [Json.stopBefore]
  | some e => simp

end Choice

/-! ## Words of a command line -/

namespace Flag

/-- What a word of a command line comes to, if it is not the mark that ends the flags. -/
def takeWord (p : Progress) (word : String) : Except UsageFault Progress :=
  match word.toList, p.pending with
  | '-' :: '-' :: body, _ => takeLong p word body
  | '-' :: c :: body, _ => takeShort p word (c :: body)
  | _, some (f, none) => .ok ⟨p.given, some (f, some word)⟩
  | _, _ => .error (.unknown word)

theorem readWords_cons {word : String} (h : word ≠ "--") (p : Progress) (rest : List String) :
    readWords p (word :: rest) = takeWord p word >>= (readWords · rest) := by
  rw [readWords.eq_def, takeWord]
  dsimp only
  split
  case h_1 heq => exact absurd (String.toList_injective heq) h
  case h_2 | h_3 => simp_all
  case h_4 | h_5 =>
    simp_all
    rfl

/-- A word with a flag's name and a text gives the flag that text. -/
theorem takeWord_named {flag : Flag} (name : String)
    (hname : name.toList ≠ [] ∧ '=' ∉ name.toList ∧ ofName? name = some flag)
    (hvalue : flag.takesValue = true) (p : Progress) (t : String) :
    takeWord p ("--" ++ name ++ "=" ++ t) =
      p.settle.bind fun g => (g.give flag t).map fun g => ⟨g, none⟩ := by
  obtain ⟨hne, hsign, hflag⟩ := hname
  obtain ⟨first, rest, hcons⟩ := List.exists_cons_of_ne_nil hne
  have hword : ("--" ++ name ++ "=" ++ t).toList =
      '-' :: '-' :: first :: (rest ++ '=' :: t.toList) := by
    simp [String.toList_append, hcons]
  have hspan : (first :: (rest ++ '=' :: t.toList)).span (· != '=') =
      (name.toList, '=' :: t.toList) := by
    rw [← List.cons_append, ← hcons]
    exact Loading.Signature.span_first hsign t.toList
  rw [takeWord, hword]
  simp only [takeLong, hspan, String.ofList_toList, hflag, hvalue]
  rw [if_pos trivial, take]
  cases p.settle with
  | error e => rfl
  | ok g => cases hg : g.give flag t <;> simp [hg, Except.bind, Except.map, bind, pure, Except.pure]

/-- **A flag's name and text at the end of a command line** give the flag that text, after what
stands in front of them. -/
theorem read_named {flag : Flag} (name : String)
    (hname : name.toList ≠ [] ∧ '=' ∉ name.toList ∧ ofName? name = some flag)
    (hvalue : flag.takesValue = true) {words : List String} (hwords : "--" ∉ words) (t : String) :
    read (words ++ ["--" ++ name ++ "=" ++ t]) = (read words).bind (·.give flag t) := by
  have hword : "--" ++ name ++ "=" ++ t ≠ "--" := by
    intro h
    have hlen := congrArg (List.length ∘ String.toList) h
    simp [String.toList_append] at hlen
  have hend : ∀ p, readWords p ["--" ++ name ++ "=" ++ t] =
      (readWords p []).bind (·.give flag t) := by
    intro p
    rw [readWords_cons hword, takeWord_named name hname hvalue, readWords]
    cases p.settle with
    | error e => rfl
    | ok g =>
      change ((g.give flag t).map fun g => (⟨g, none⟩ : Progress)).bind (readWords · []) =
        g.give flag t
      cases g.give flag t <;> rfl
  suffices h : ∀ p, readWords p (words ++ ["--" ++ name ++ "=" ++ t]) =
      (readWords p words).bind (·.give flag t) from h _
  induction words with
  | nil => exact hend
  | cons word words ih =>
    intro p
    obtain ⟨hne, hrest⟩ := not_or.1 (mt List.mem_cons.2 hwords)
    rw [List.cons_append, readWords_cons (Ne.symm hne), readWords_cons (Ne.symm hne)]
    cases takeWord p word with
    | error e => rfl
    | ok p' => exact ih hrest p'

end Flag

/-! ## Settings -/

namespace Setting

/-- The names that a setting takes, if it takes one of a few. -/
def choice? : (f : Setting) → Option (Choice f.Value)
  | strategy => some conversionChoice
  | onInvokeError => some policyChoice
  | logFormat => some LogFormat.choice
  | entryPoint | requestLogging | logFilter => none

/-- The flag of a setting. -/
def flag : Setting → Flag
  | strategy => .strategy
  | entryPoint => .entryPoint
  | onInvokeError => .onInvokeError
  | requestLogging => .requestLogging
  | logFilter => .logFilter
  | logFormat => .logFormat

/-- A word of a command line that gives a setting a text. -/
def word (f : Setting) (t : String) : String := UsageFault.shown f.flag ++ "=" ++ t

theorem plain_choice {f : Setting} {c : Choice f.Value} (hc : f.choice? = some c) : c.Plain := by
  have plain {α : Type} {c : Choice α}
      (h : ∀ e ∈ c.names, e.1.toList.map Char.toLower = e.1.toList)
      (hn : (c.names.map (·.1)).Nodup) : c.Plain :=
    ⟨fun e he => map_toLower (h e he), hn⟩
  cases f with
  | entryPoint | requestLogging | logFilter => cases hc
  | strategy | onInvokeError | logFormat =>
    cases hc
    exact plain (by decide +kernel) (by decide +kernel)

theorem read_choice {f : Setting} {c : Choice f.Value} (hc : f.choice? = some c) :
    f.read = c.ofValue := by
  cases f with
  | entryPoint | requestLogging | logFilter => cases hc
  | strategy | onInvokeError | logFormat =>
    cases hc
    rfl

/-- A text that is given at the end of a command line. -/
theorem read_word {f : Setting} (hf : f ≠ .requestLogging) {words : List String}
    (hwords : "--" ∉ words) (t : String) :
    Flag.read (words ++ [f.word t]) = (Flag.read words).bind (·.give f.flag t) := by
  cases f with
  | strategy => exact Flag.read_named "strategy" (by decide) rfl hwords t
  | entryPoint => exact Flag.read_named "entry-point" (by decide) rfl hwords t
  | onInvokeError => exact Flag.read_named "on-invoke-error" (by decide) rfl hwords t
  | requestLogging => exact absurd rfl hf
  | logFilter => exact Flag.read_named "log-filter" (by decide) rfl hwords t
  | logFormat => exact Flag.read_named "log-format" (by decide) rfl hwords t

/-- What the command line has for a setting is what its text stands for as a flag's. -/
theorem read_flagged {f : Setting} {c : Choice f.Value} (hc : f.choice? = some c) (t : String)
    (a : f.Value) :
    (∃ g, Flag.read [f.word t] = .ok g ∧ g.value f = some a) ↔ c.ofFlag? t = some a := by
  have hf : f ≠ .requestLogging := by
    rintro rfl
    cases hc
  have hread : Flag.read [f.word t] = Given.nothing.give f.flag t :=
    read_word hf List.not_mem_nil t
  rw [hread]
  cases f with
  | entryPoint | requestLogging | logFilter => cases hc
  | strategy | onInvokeError | logFormat =>
    cases hc
    simp only [flag, Given.give, Given.once, Given.nothing, Option.isSome_none, Bool.false_eq_true,
      if_false]
    split
    next b hb => simp [hb, Given.value]
    next hn => simp [hn]

/-- **How names may be spelt.** For a setting that takes one of a few names, a text on the command
line stands for the value whose name it is in lower case. In the environment, in files and in JSON
it stands for a value just if it is the value's name as it is. So they agree on the text just if it
is no name that is not written in lower case. -/
theorem spelling {f : Setting} {c : Choice f.Value} (hc : f.choice? = some c) (t : String) :
    (∀ a, (∃ g, Flag.read [f.word t] = .ok g ∧ g.value f = some a) ↔ c.ofFlag? t = some a) ∧
    (∀ a, c.ofFlag? t = some a ↔ (t.map Char.toLower, a) ∈ c.names) ∧
    (∀ a, f.read (.string t) = .ok a ↔ (t, a) ∈ c.names) ∧
    (∀ size depth rest a, t.length < size →
      (Json.readChoice size depth c.names ((Json.stringText t).toList ++ rest) = .ok (a, rest) ↔
        (t, a) ∈ c.names)) ∧
    (c.ofFlag? t = (f.read (.string t)).toOption ↔
      ∀ a, (t.map Char.toLower, a) ∈ c.names → t.map Char.toLower = t) := by
  have hp := plain_choice hc
  have hflag := Choice.ofFlag?_eq_some_iff hp t
  have hname := Choice.ofName?_eq_some_iff hp t
  have hread : ∀ a, f.read (.string t) = .ok a ↔ (t, a) ∈ c.names := by
    intro a
    rw [read_choice hc, Choice.ofValue_string_eq_ok_iff, hname]
  refine ⟨read_flagged hc t, hflag, hread, fun size depth rest a ht => ?_, fun hsame a ha => ?_,
    fun hlower => ?_⟩
  · rw [Choice.readChoice_string c depth ht, hname]
  · rw [(hflag a).2 ha] at hsame
    exact hp.lower _ ((hread a).1 (eq_ok_of_toOption hsame.symm))
  · cases hf : c.ofFlag? t with
    | some a =>
      have ha := (hflag a).1 hf
      rw [(hread a).2 (hlower a ha ▸ ha)]
      rfl
    | none =>
      cases hr : f.read (.string t) with
      | error e => rfl
      | ok a =>
        have ha := (hread a).1 hr
        rw [(hflag a).2 ((hp.lower _ ha).symm ▸ ha)] at hf
        cases hf

end Setting

theorem spelling_module :
    Setting.strategy.choice? = some conversionChoice ∧
      (∃ g, Flag.read ["--strategy=mOdule"] = .ok g ∧ g.strategy = some .module) ∧
      ∀ a, Setting.strategy.read (.string "mOdule") ≠ .ok a := by
  obtain ⟨hgiven, hflag, hread, -⟩ := Setting.spelling (f := .strategy) rfl "mOdule"
  have hlower : "mOdule".map Char.toLower = "module" := map_toLower (by decide)
  refine ⟨rfl, (hgiven .module).2 ((hflag .module).2 ?_), fun a ha => ?_⟩
  · simp [hlower, conversionChoice]
  · have hmem := (hread a).1 ha
    simp [conversionChoice] at hmem

/-- The fault of a name in upper case. -/
def recasedFault : ValueFault := .unknownName "MODULE" ["signature", "module"]

theorem eq_recasedFault {x : Except LoadError Settings} (hx : (match x with
    | .error (.merge (.unknownName name known)) =>
      name == "MODULE" && known == ["signature", "module"]
    | _ => false) = true) : x = .error (.merge recasedFault) := by
  split at hx
  · simp only [Bool.and_eq_true, beq_iff_eq] at hx
    rw [hx.1, hx.2]
    rfl
  · cases hx

/-- A name in upper case is taken from the command line, but not from the environment or a file. -/
theorem recased_refused :
    conversionChoice.ofFlag? "MODULE" = some .module ∧
      Setting.strategy.read (.string "MODULE") = .error recasedFault ∧
      (∃ g, Flag.read ["--strategy=MODULE"] = .ok g ∧ g.strategy = some .module) ∧
      load ⟨[], [("FUNCWORKER_STRATEGY", "MODULE")], [], "/d"⟩ = .error (.merge recasedFault) ∧
      load ⟨["--config-path=/d/f.toml"], [],
        [("/d/f.toml", .file "strategy = \"MODULE\"")], "/d"⟩ =
          .error (.merge recasedFault) := by
  have hlower : "MODULE".map Char.toLower = "module" := map_toLower (by decide)
  have hflag : conversionChoice.ofFlag? "MODULE" = some .module := by
    rw [Choice.ofFlag?_eq_some_iff (Setting.plain_choice (f := .strategy) rfl), hlower]
    simp [conversionChoice]
  have hnone : conversionChoice.ofName? "MODULE" = none := by decide +kernel
  have hread : Setting.strategy.read (.string "MODULE") = .error recasedFault := by
    show conversionChoice.ofKnown "MODULE" = .error recasedFault
    rw [Choice.ofKnown, hnone]
    rfl
  have hgiven := (Setting.read_flagged (f := .strategy) rfl "MODULE" .module).2 hflag
  refine ⟨hflag, hread, hgiven, ?_, ?_⟩
  · exact eq_recasedFault (by decide +kernel)
  · exact eq_recasedFault (by decide +kernel)

end ScriptWorker.Config
