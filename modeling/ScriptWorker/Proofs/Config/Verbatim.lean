import ScriptWorker.Proofs.Config.Literals
import ScriptWorker.Proofs.Config.Spelling

/-!
# Texts from the environment

A setting that may be any text takes the text that the command line gives as it is. A text from the
environment is understood as a value first (`Understood`), so it is what it stands for that counts:
it is the setting's text, or it is no text and the settings cannot be loaded. What is kept as it is
are just the texts that stand for themselves (`understood_eq_ok_iff`). Where another source has
nothing to say about the setting, that is all that becomes of it (`text_of_variable`).
-/

set_option autoImplicit false

namespace ScriptWorker.Config

open Variables

/-! ## What a text stands for -/

/-- What a text without blanks around it comes to where a text is wanted: a list by commas is none,
a literal is one if it stands for a string, and anything else is the text itself. -/
inductive Understood (s : List Char) : Except ValueFault String → Prop
  | listed (h : Listed s) : Understood s (.error (.wrongType .sequence "a string"))
  | string {t : String} (h : ¬Listed s) (hl : Literal (.string t) s) : Understood s (.ok t)
  | other {v : Json.Value} (h : ¬Listed s) (hl : Literal v s) (hv : ∀ t, v ≠ .string t) :
      Understood s (.error (.wrongType (foundOf v) "a string"))
  | itself (h : ¬Listed s) (hn : ∀ v, ¬Literal v s) : Understood s (.ok (String.ofList s))

/-- A text that stands for itself: there are no blanks around it, it is no list by commas, and it
writes no other value. -/
structure Verbatim (s : List Char) : Prop where
  trimmed : Text.Trimmed s
  notListed : ¬Listed s
  noLiteral : ∀ v, ¬Literal v s

theorem textOf_of_not_string {v : Json.Value} (hv : ∀ t, v ≠ .string t) :
    textOf v = .error (.wrongType (foundOf v) "a string") := by
  cases v with
  | string t => exact absurd rfl (hv t)
  | _ => rfl

/-- A text of the environment is read as what it is understood as. -/
theorem understood_textOf (t : String) :
    Understood (Text.trim t.toList) (textOf (valueOf t)) := by
  by_cases hlisted : Listed (Text.trim t.toList)
  · obtain ⟨items, hv⟩ := valueOf_listed hlisted
    rw [hv]
    exact .listed hlisted
  by_cases hliteral : ∃ v, Literal v (Text.trim t.toList)
  · obtain ⟨v, hl⟩ := hliteral
    rw [valueOf_literal hlisted hl]
    by_cases hv : ∃ u, v = .string u
    · obtain ⟨u, rfl⟩ := hv
      exact .string hlisted hl
    · rw [textOf_of_not_string (not_exists.1 hv)]
      exact .other hlisted hl (not_exists.1 hv)
  · have hn := not_exists.1 hliteral
    rw [valueOf_other hlisted hn]
    exact .itself hlisted hn

/-- **A text is understood as itself just if it stands for itself.** -/
theorem understood_eq_ok_iff {t : String} {x : Except ValueFault String}
    (h : Understood (Text.trim t.toList) x) : x = .ok t ↔ Verbatim t.toList := by
  constructor
  · intro hx
    cases h with
    | listed | other => cases hx
    | string hlisted hl =>
      cases hx
      -- a literal is longer than its string, and trimming makes nothing longer
      have hlen := hl.length_lt
      have htrim := Text.length_trim_le t.toList
      rw [String.length_toList] at htrim
      omega
    | itself hlisted hn =>
      have htrim := congrArg String.toList (Except.ok.inj hx)
      rw [String.toList_ofList] at htrim
      rw [htrim] at hlisted hn
      exact ⟨Text.trim_eq_self_iff.1 htrim, hlisted, hn⟩
  · rintro ⟨ht, hlisted, hn⟩
    rw [ht.trim_eq] at h
    cases h with
    | listed h => exact absurd h hlisted
    | string _ hl | other _ hl => exact absurd hl (hn _)
    | itself => rw [String.ofList_toList]

/-- A literal that opens a list closes it. -/
theorem closes_of_literal {v : Json.Value} {s : List Char} (h : Literal v ('[' :: s)) :
    ']' ∈ s.getLast? := by
  cases h with
  | number h => exact absurd (h.chars '[' List.mem_cons_self) (by decide)
  | closed h =>
    cases h with
    | list h => simp

/-- A filter of spans stands for itself, in spite of its brackets and its comma. -/
theorem verbatim_span : Verbatim "[span]=debug,warn".toList where
  trimmed := ⟨by rintro _ ⟨⟩; rfl, by rintro _ ⟨⟩; rfl⟩
  notListed h := (h.2 '[' rfl).1 rfl
  noLiteral v h := by cases closes_of_literal h

/-! ## One variable more -/

section Insert

variable {before after : Variables} {name : String} {t : String}

/-- Other variables are found as they were. -/
theorem find?_insert {other : String} (h : other ≠ name) :
    find? (before ++ (name, t) :: after) other = find? (before ++ after) other := by
  rw [find?, find?, List.lookup_append, List.lookup_append, List.lookup_cons,
    beq_eq_false_iff_ne.2 h]

/-- The same files are read, unless the variable says where they are. -/
theorem readFiles_insert (h : name ∉ ["FUNCWORKER_CONFIG_PATH", "XDG_CONFIG_HOME",
      "XDG_CONFIG_DIRS", "HOME"]) (fs : FileSystem) (directory : String) (named : Option String) :
    readFiles fs (before ++ (name, t) :: after) directory named =
      readFiles fs (before ++ after) directory named := by
  have hfind : ∀ other ∈ ["FUNCWORKER_CONFIG_PATH", "XDG_CONFIG_HOME", "XDG_CONFIG_DIRS", "HOME"],
      find? (before ++ (name, t) :: after) other = find? (before ++ after) other :=
    fun other hm => find?_insert fun he => h (he ▸ hm)
  simp only [List.forall_mem_cons] at hfind
  obtain ⟨h1, h2, h3, h4, -⟩ := hfind
  have husual : usualPaths (before ++ (name, t) :: after) directory =
      usualPaths (before ++ after) directory := by
    rw [usualPaths, usualPaths, h1, h2, h3, h4]
  simp only [readFiles, husual]

section Entry

variable {field : String} {v : Json.Value} (he : entry? name t = some (field, v))
include he

/-- The layer has one entry more. -/
theorem layer_insert (before after : Variables) :
    ∃ above below, layer (before ++ after) = above ++ below ∧
      layer (before ++ (name, t) :: after) = above ++ (field, v) :: below := by
  refine ⟨layer after, layer before, ?_, ?_⟩ <;>
    simp [layer, List.reverse_append, List.filterMap_append, he]

theorem lookup_layer_insert (hnone : (layer (before ++ after)).lookup field = none) :
    (layer (before ++ (name, t) :: after)).lookup field = some v := by
  obtain ⟨above, below, hplain, hmore⟩ := layer_insert he before after
  rw [hplain, List.lookup_append, Option.or_eq_none_iff] at hnone
  rw [hmore, List.lookup_append, hnone.1, Option.none_or, List.lookup_cons, beq_self_eq_true]

theorem lookup_layer_insert_of_ne {other : String} (h : other ≠ field) :
    (layer (before ++ (name, t) :: after)).lookup other =
      (layer (before ++ after)).lookup other := by
  obtain ⟨above, below, hplain, hmore⟩ := layer_insert he before after
  rw [hplain, hmore, List.lookup_append, List.lookup_append, List.lookup_cons,
    beq_eq_false_iff_ne.2 h]

end Entry

end Insert

/-! ## One setting changed -/

namespace Setting

/-- The settings with another value for one of them. -/
def put (r : Settings) : (f : Setting) → f.Value → Settings
  | strategy, v => { r with strategy := v }
  | entryPoint, v => { r with entryPoint := v }
  | onInvokeError, v => { r with onInvokeError := v }
  | requestLogging, v => { r with requestLogging := v }
  | logFilter, v => { r with logFilter := v }
  | logFormat, v => { r with logFormat := v }

theorem name_injective {f other : Setting} (h : f.name = other.name) : f = other := by
  revert h
  cases f <;> cases other <;> decide

theorem get_put (f : Setting) (r : Settings) (v : f.Value) : f.get (f.put r v) = v := by
  cases f <;> rfl

theorem get_put_of_ne {f other : Setting} (h : other ≠ f) (r : Settings) (v : f.Value) :
    other.get (f.put r v) = other.get r := by
  cases f <;> cases other <;> first | rfl | exact absurd rfl h

/-- **Layers with another value for one setting** give the settings with what it is read as, or the
fault of reading it. -/
theorem ofLayers_put {f : Setting} {layers layers' : List Layer} {r : Settings}
    (hr : Settings.ofLayers layers = .ok r) {v : Json.Value}
    (hv : lookUp layers' f.name = some v)
    (hother : ∀ other : Setting, other ≠ f →
      lookUp layers' other.name = lookUp layers other.name) :
    Settings.ofLayers layers' = (f.read v).map (f.put r) := by
  have hread : f.ofLayers layers' = f.read v := by
    rw [ofLayers, setting, hv]
  have hsame : ∀ other : Setting, other ≠ f → other.ofLayers layers' = .ok (other.get r) :=
    fun other hne => (ofLayers_congr (hother other hne)).trans (get_of_ofLayers hr other)
  cases hx : f.read v with
  | error e =>
    refine ofLayers_eq_error (hread.trans hx) fun other => ?_
    by_cases he : other = f
    · rw [he, hread, hx]
      exact .inl rfl
    · exact .inr ⟨_, hsame other he⟩
  | ok x =>
    refine ofLayers_eq_ok_iff.2 fun other => ?_
    by_cases he : other = f
    · subst he
      rw [hread, hx, get_put]
    · rw [hsame other he, get_put_of_ne he]

end Setting

/-- What a check of all layers says if it holds. -/
theorem silent_of_all {layers : List Layer} {name : String}
    (h : (layers.all fun layer => (layer.lookup name).isNone) = true) :
    ∀ layer ∈ layers, layer.lookup name = none := fun layer hm =>
  Option.isNone_iff_eq_none.1 (List.all_eq_true.1 h layer hm)

theorem lookUp_eq_none {layers : List Layer} {name : String}
    (h : ∀ layer ∈ layers, layer.lookup name = none) : lookUp layers name = none := by
  induction layers with
  | nil => rfl
  | cons layer layers ih =>
    obtain ⟨hlayer, hlayers⟩ := List.forall_mem_cons.1 h
    rw [lookUp_cons_of_none hlayer, ih hlayers]

/-! ## Settings that may be any text -/

/-- A setting that may be any text. -/
inductive TextSetting where
  | entryPoint | logFilter

namespace TextSetting

/-- Which setting it is. -/
def setting : TextSetting → Setting
  | entryPoint => .entryPoint
  | logFilter => .logFilter

/-- The name of the variable that sets it. -/
def variableName : TextSetting → String
  | entryPoint => "FUNCWORKER_ENTRY_POINT"
  | logFilter => "FUNCWORKER_LOG_FILTER"

/-- Its text. -/
def get (r : Settings) : TextSetting → String
  | entryPoint => r.entryPoint
  | logFilter => r.logFilter

/-- The settings with another text for it. -/
def put (r : Settings) (t : String) : TextSetting → Settings
  | entryPoint => { r with entryPoint := t }
  | logFilter => { r with logFilter := t }

/-- What a command line gives, with a text for it. -/
def give (g : Given) (t : String) : TextSetting → Given
  | entryPoint => { g with entryPoint := some t }
  | logFilter => { g with logFilter := some t }

theorem get_put (f : TextSetting) (r : Settings) (t : String) : f.get (f.put r t) = t := by
  cases f <;> rfl

theorem setting_ne (f : TextSetting) : f.setting ≠ .requestLogging := by
  cases f <;> decide

/-- The variable is for the setting, and for nothing else. -/
theorem entry?_variableName (f : TextSetting) (t : String) :
    entry? f.variableName t = some (f.setting.name, valueOf t) := by
  cases f <;> rfl

theorem variableName_not_mem (f : TextSetting) : f.variableName ∉
    ["FUNCWORKER_CONFIG_PATH", "XDG_CONFIG_HOME", "XDG_CONFIG_DIRS", "HOME"] := by
  cases f <;> decide

theorem give_flag {f : TextSetting} {g : Given} (h : g.layer.lookup f.setting.name = none)
    (t : String) : g.give f.setting.flag t = .ok (f.give g t) := by
  rw [Given.lookup_layer, Option.map_eq_none_iff] at h
  cases f with
  | entryPoint | logFilter =>
    dsimp only [setting, Given.value] at h
    simp only [setting, Setting.flag, Given.give, Given.once, h]
    rfl

theorem lookup_give (f : TextSetting) (g : Given) (t : String) :
    (f.give g t).layer.lookup f.setting.name = some (.string t) := by
  rw [Given.lookup_layer]
  cases f <;> rfl

theorem lookup_give_of_ne {f : TextSetting} {other : Setting} (h : other ≠ f.setting) (g : Given)
    (t : String) : (f.give g t).layer.lookup other.name = g.layer.lookup other.name := by
  rw [Given.lookup_layer, Given.lookup_layer]
  cases f with
  | entryPoint =>
    cases other with
    | entryPoint => exact absurd rfl h
    | _ => rfl
  | logFilter =>
    cases other with
    | logFilter => exact absurd rfl h
    | _ => rfl

theorem ofLayers_put {f : TextSetting} {layers layers' : List Layer} {r : Settings}
    (hr : Settings.ofLayers layers = .ok r) {v : Json.Value}
    (hv : lookUp layers' f.setting.name = some v)
    (hother : ∀ other : Setting, other ≠ f.setting →
      lookUp layers' other.name = lookUp layers other.name) :
    Settings.ofLayers layers' = (textOf v).map (f.put r ·) := by
  cases f <;> exact Setting.ofLayers_put hr hv hother

section Load

variable {s : Sources} {r : Settings} (f : TextSetting) (hr : load s = .ok r)
  (hf : ∀ layer ∈ s.layers.1, layer.lookup f.setting.name = none)
include hr hf

/-- A variable with a text gives what the text is read as. -/
theorem load_variable {before after : Variables} (henv : s.environment = before ++ after)
    (t : String) :
    load { s with environment := before ++ (f.variableName, t) :: after } =
      ((textOf (valueOf t)).map (f.put r ·)).mapError .merge := by
  obtain ⟨g, files, hg, hfiles, hlayers, hr⟩ := layers_of_load hr
  rw [hlayers] at hf hr
  simp only [List.forall_mem_cons] at hf
  obtain ⟨hgiven, henvironment, hbelow⟩ := hf
  rw [henv] at hr hfiles henvironment
  have hentry := f.entry?_variableName t
  have hread : readFiles s.files (before ++ (f.variableName, t) :: after) s.directory
      g.configPath = (files, []) := by
    rw [readFiles_insert f.variableName_not_mem, hfiles]
  rw [load_eq (s := { s with environment := before ++ (f.variableName, t) :: after }) hg hread]
  refine congrArg _ (ofLayers_put hr ?_ fun other hne => ?_)
  · rw [lookUp_cons_of_none hgiven, lookUp_cons, lookup_layer_insert hentry henvironment,
      lookUp_eq_none hbelow]
  · have hname : other.name ≠ f.setting.name := fun h => hne (Setting.name_injective h)
    simp only [lookUp_cons, lookup_layer_insert_of_ne hentry hname]

/-- The command line with a text gives that text. -/
theorem load_word (hwords : "--" ∉ s.words) (t : String) :
    load { s with words := s.words ++ [f.setting.word t] } = .ok (f.put r t) := by
  obtain ⟨g, files, hg, hfiles, hlayers, hr⟩ := layers_of_load hr
  rw [hlayers] at hf hr
  have hgiven := hf _ List.mem_cons_self
  have hread : Flag.read (s.words ++ [f.setting.word t]) = .ok (f.give g t) := by
    rw [Setting.read_word f.setting_ne hwords, hg]
    exact give_flag hgiven t
  have hpath : (f.give g t).configPath = g.configPath := by
    cases f <;> rfl
  rw [← hpath] at hfiles
  rw [load_eq (s := { s with words := s.words ++ [f.setting.word t] }) hread hfiles]
  have hput : Settings.ofLayers ((f.give g t).layer :: Variables.layer s.environment :: files) =
      (textOf (.string t)).map (f.put r ·) := by
    refine ofLayers_put hr ?_ fun other hne => ?_
    · exact lookUp_cons_of_not_object (f.lookup_give g t) nofun _
    · simp only [lookUp_cons, lookup_give_of_ne hne]
  rw [hput]
  rfl

end Load

/-- **A text from the environment**, where no other source says anything about the setting, is what
it is understood as, and if that is no text, the settings cannot be loaded. It is kept as it is just
if it stands for itself. On the command line any text is kept. -/
theorem text_of_variable (f : TextSetting) {s : Sources} {r : Settings} (hr : load s = .ok r)
    (hf : ∀ layer ∈ s.layers.1, layer.lookup f.setting.name = none) {before after : Variables}
    (henv : s.environment = before ++ after) (t : String) :
    let given : Sources := { s with environment := before ++ (f.variableName, t) :: after }
    (∃ x, Understood (Text.trim t.toList) x ∧
      load given = (x.map (f.put r ·)).mapError .merge) ∧
    ((∃ r', load given = .ok r' ∧ f.get r' = t) ↔ Verbatim t.toList) ∧
    (Verbatim t.toList → load given = .ok (f.put r t)) ∧
    ("--" ∉ s.words →
      load { s with words := s.words ++ [f.setting.word t] } = .ok (f.put r t)) := by
  intro given
  have hload := load_variable f hr hf henv t
  have hunderstood := understood_textOf t
  have hverbatim := understood_eq_ok_iff hunderstood
  refine ⟨⟨_, hunderstood, hload⟩, ⟨?_, fun hv => ?_⟩, fun hv => ?_, fun hwords =>
    load_word f hr hf hwords t⟩
  · rintro ⟨r', hr', hget⟩
    rw [hload, mapError_eq_ok, map_eq_ok_iff] at hr'
    obtain ⟨u, hu, rfl⟩ := hr'
    rw [f.get_put] at hget
    exact hverbatim.1 (hget ▸ hu)
  · refine ⟨_, ?_, f.get_put r t⟩
    rw [hload, hverbatim.2 hv]
    rfl
  · rw [hload, hverbatim.2 hv]
    rfl

end TextSetting

/-- Such a filter is kept, from the environment and from the command line. -/
theorem text_of_variable_span :
    let s : Sources := ⟨["--strategy=module"], [("FUNCWORKER_ON_INVOKE_ERROR", "report")], [], "/d"⟩
    let t := "[span]=debug,warn"
    ∃ r, load s = .ok r ∧ (∀ layer ∈ s.layers.1, layer.lookup "log_filter" = none) ∧
      s.environment = [] ++ s.environment ∧ Verbatim t.toList ∧ "--" ∉ s.words ∧
      load { s with environment := ("FUNCWORKER_LOG_FILTER", t) :: s.environment } =
        .ok { r with logFilter := t } ∧
      load { s with words := s.words ++ ["--log-filter=" ++ t] } =
        .ok { r with logFilter := t } := by
  intro s t
  have hr := eq_ok_getD (x := load s) (by decide +kernel) .default
  have hf : ∀ layer ∈ s.layers.1, layer.lookup "log_filter" = none :=
    silent_of_all (by decide +kernel)
  have henv : s.environment = [] ++ s.environment := rfl
  have hwords : "--" ∉ s.words := by decide
  obtain ⟨-, -, hkept, hgiven⟩ := TextSetting.text_of_variable .logFilter hr hf henv t
  exact ⟨_, hr, hf, henv, verbatim_span, hwords, hkept verbatim_span, hgiven hwords⟩

/-- A filter with a comma is kept by the command line, but in the environment it is a list. -/
theorem filter_listed :
    let t := "funcworker::user=debug,warn"
    load ⟨[], [("FUNCWORKER_LOG_FILTER", t)], [], "/d"⟩ =
        .error (.merge (.wrongType .sequence "a string")) ∧
      ∃ r, load ⟨["--log-filter=" ++ t], [], [], "/d"⟩ = .ok r ∧ r.logFilter = t := by
  intro t
  have hr := eq_ok_getD (x := load ⟨[], [], [], "/d"⟩) (by decide +kernel) .default
  have hf : ∀ layer ∈ (⟨[], [], [], "/d"⟩ : Sources).layers.1, layer.lookup "log_filter" = none :=
    silent_of_all (by decide +kernel)
  have henv : (⟨[], [], [], "/d"⟩ : Sources).environment = [] ++ [] := rfl
  have hlisted : Listed (Text.trim "funcworker::user=debug,warn".toList) :=
    ⟨by decide, by rintro _ ⟨⟩; decide⟩
  constructor
  · obtain ⟨items, hv⟩ := valueOf_listed hlisted
    have hload := TextSetting.load_variable .logFilter hr hf henv t
    rw [hv] at hload
    exact hload
  · exact ⟨_, TextSetting.load_word .logFilter hr hf (by decide) t, rfl⟩

end ScriptWorker.Config
