import ScriptWorker.Config.Load
import ScriptWorker.Proofs.Config.Layers

/-!
# Which source a setting comes from

Sources with which nothing is wrong give the layers of the command line, of the environment and of
the file (`Sources.Loads.load_eq`), so each setting is that of the first source that gives it
(`precedence`), but for tables with different names in the environment and in the file. The logging
of requests is the exception: the command line always gives it (`requestLogging_flag`).
-/

set_option autoImplicit false

namespace ScriptWorker.Config

/-! ## Reading sources -/

section Reading

variable {s : Sources} {g : Given} {r : Settings}

/-- Where settings are loaded, the command line is accepted and nothing is wrong with the files. -/
theorem layers_of_load (h : load s = .ok r) :
    ∃ g files, Flag.read s.words = .ok g ∧
      readFiles s.files s.environment s.directory g.configPath = (files, []) ∧
      s.layers.1 = g.layer :: Variables.layer s.environment :: files ∧
      Settings.ofLayers s.layers.1 = .ok r := by
  have hlayers : s.layers.2 = [] ∧ Settings.ofLayers s.layers.1 = .ok r := by
    unfold load at h
    split at h
    rename_i layers errors hs
    split at h
    case h_1 hr => exact ⟨by rw [hs], by rw [hs, hr]; exact congrArg _ (Except.ok.inj h)⟩
    all_goals cases h
  obtain ⟨hnone, hr⟩ := hlayers
  cases hg : Flag.read s.words with
  | error f =>
    unfold Sources.layers at hnone
    rw [hg] at hnone
    cases hnone
  | ok g =>
    obtain ⟨files, faults, hf⟩ : ∃ files faults,
        readFiles s.files s.environment s.directory g.configPath = (files, faults) := ⟨_, _, rfl⟩
    have hs : s.layers =
        (g.layer :: Variables.layer s.environment :: files, faults.map .ofFiles) := by
      unfold Sources.layers
      rw [hg]
      simp only [Option.bind_some, hf]
      rfl
    rw [hs] at hnone
    obtain rfl := List.map_eq_nil_iff.1 hnone
    exact ⟨g, files, rfl, hf, by rw [hs], hr⟩

/-- Where settings are loaded, the command line is accepted. -/
theorem exists_given_of_load (h : load s = .ok r) :
    ∃ g files, Flag.read s.words = .ok g ∧
      Settings.ofLayers (g.layer :: Variables.layer s.environment :: files) = .ok r := by
  obtain ⟨g, files, hg, -, hlayers, hr⟩ := layers_of_load h
  exact ⟨g, files, hg, hlayers ▸ hr⟩

/-- Settings are what the layers give where nothing is wrong with the sources. -/
theorem load_eq {files : List Layer} (hg : Flag.read s.words = .ok g)
    (hf : readFiles s.files s.environment s.directory g.configPath = (files, [])) :
    load s = (Settings.ofLayers (g.layer :: Variables.layer s.environment :: files)).mapError
      .merge := by
  have hlayers : s.layers = (g.layer :: Variables.layer s.environment :: files, []) := by
    unfold Sources.layers
    rw [hg]
    simp only [Option.bind_some, hf]
    rfl
  rw [load, hlayers]
  simp only
  cases Settings.ofLayers (g.layer :: Variables.layer s.environment :: files) with
  | ok r => rfl
  | error f => rfl

/-- Files that are not there give nothing. -/
theorem firstOf_missing {fs : FileSystem} {directory : String} {paths : List String}
    (h : ∀ path ∈ paths, fs.node (Path.resolve directory path) = .missing)
    (faults : List FilesFault) : firstOf fs directory faults paths = (none, faults.reverse) := by
  induction paths with
  | nil => rfl
  | cons path paths ih =>
    obtain ⟨hpath, hpaths⟩ := List.forall_mem_cons.1 h
    rw [firstOf, readFile]
    simp only [hpath]
    exact ih hpaths

/-- Without a named file there is the first of the usual ones. -/
theorem readFiles_none {fs : FileSystem} {vars : Variables} {directory : String}
    {found : Option (List Layer)} {faults : List FilesFault}
    (h : firstOf fs directory [] (usualPaths vars directory) = (found, faults)) :
    readFiles fs vars directory none =
      (found.getD [], if found.isSome then [] else faults) := by
  unfold readFiles
  simp only [h]
  cases found <;> rfl

/-- A named file that is there is the only one. -/
theorem readFiles_some {fs : FileSystem} {directory path : String} {layers : List Layer}
    (h : readFile fs directory path = .ok (some layers)) (vars : Variables) :
    readFiles fs vars directory (some path) = (layers, []) := by
  unfold readFiles
  simp only [h]

/-- A file that extends no other one gives its document. -/
theorem readFile_document {fs : FileSystem} {directory path text : String} {doc : Layer}
    (ht : fs.node (Path.resolve directory path) = .file text)
    (hd : readDocument (Path.resolve directory path) text = .ok doc)
    (he : doc.lookup "extends" = none) : readFile fs directory path = .ok (some [doc]) := by
  have hbase : extended? (Path.resolve directory path) doc = .ok none := by
    rw [extended?, he]
  rw [readFile]
  simp only [ht]
  rw [readChain, List.contains_nil, if_neg Bool.false_ne_true, hd]
  show (do
    let base ← extended? (Path.resolve directory path) doc
    _ : Except FilesFault (List Layer)).map some = _
  rw [hbase]
  rfl

/-- A command line that names a file and nothing else. -/
theorem read_configPath {path : String} {g : Given}
    (h : Flag.read ["--config-path=" ++ path] = .ok g) :
    g = { Given.nothing with configPath := some path } := by
  have hword : ("--config-path=" ++ path).toList =
      '-' :: '-' :: 'c' :: ("onfig-path".toList ++ '=' :: path.toList) := by
    rw [String.toList_append]
    rfl
  have htake : Flag.takeLong ⟨.nothing, none⟩ ("--config-path=" ++ path)
      ('c' :: ("onfig-path".toList ++ '=' :: path.toList)) =
        (Given.nothing.give .configPath path).bind fun g => .ok ⟨g, none⟩ := by
    have hspan : ('c' :: ("onfig-path".toList ++ '=' :: path.toList)).span (· != '=') =
        ("config-path".toList, '=' :: path.toList) := rfl
    have hname : Flag.ofName? "config-path" = some .configPath := by decide
    simp only [Flag.takeLong, hspan, String.ofList_toList, hname]
    rfl
  rw [Flag.read, Flag.readWords, hword] at h
  change (Flag.takeLong ⟨.nothing, none⟩ _ _).bind (Flag.readWords · []) = .ok g at h
  rw [htake] at h
  obtain ⟨p, hp, hg⟩ := bind_eq_ok h
  obtain ⟨g', hg', hp⟩ := bind_eq_ok hp
  cases hp
  cases hg
  cases hp : path.isEmpty with
  | true =>
    rw [Given.give, hp] at hg'
    cases hg'
  | false =>
    rw [Given.give, hp] at hg'
    cases hg'
    rfl

/-! ## One source alone -/

/-- A setting that layers name is what its value is read as. -/
theorem read_of_lookUp {layers : List Layer} {r : Settings} {f : Setting} {v : Json.Value}
    (h : Settings.ofLayers layers = .ok r) (hv : lookUp layers f.name = some v) :
    f.read v = .ok (f.get r) := by
  have hf := get_of_ofLayers h f
  rwa [Setting.ofLayers, setting, hv] at hf

/-- The environment alone. -/
theorem read_of_environment {env : Variables} {directory : String} {E : Settings}
    (h : load ⟨[], env, [], directory⟩ = .ok E) {f : Setting} (hf : f ≠ .requestLogging)
    {v : Json.Value} (hv : (Variables.layer env).lookup f.name = some v) :
    f.read v = .ok (f.get E) := by
  have hmissing : ∀ path ∈ usualPaths env directory,
      FileSystem.node [] (Path.resolve directory path) = .missing := fun _ _ => rfl
  have hfiles : readFiles [] env directory Given.nothing.configPath = ([], []) :=
    readFiles_none (firstOf_missing hmissing [])
  rw [load_eq (s := ⟨[], env, [], directory⟩) rfl hfiles, mapError_eq_ok] at h
  refine read_of_lookUp h ?_
  have hnothing : Given.nothing.layer.lookup f.name = none := by
    rw [Given.lookup_layer]
    cases f <;> first | rfl | exact absurd rfl hf
  rw [lookUp_cons_of_none hnothing, lookUp_cons, hv]
  rfl

/-- A file alone. -/
theorem read_of_file {fs : FileSystem} {directory path text : String} {doc : Layer} {F : Settings}
    (ht : fs.node (Path.resolve directory path) = .file text)
    (hd : readDocument (Path.resolve directory path) text = .ok doc)
    (he : doc.lookup "extends" = none)
    (h : load ⟨["--config-path=" ++ path], [], fs, directory⟩ = .ok F) {f : Setting}
    (hf : f ≠ .requestLogging) {v : Json.Value} (hv : doc.lookup f.name = some v) :
    f.read v = .ok (f.get F) := by
  obtain ⟨g, -, hg, -⟩ := exists_given_of_load h
  have hgiven := read_configPath hg
  have hfiles : readFiles fs [] directory g.configPath = ([doc], []) := by
    rw [hgiven]
    exact readFiles_some (readFile_document ht hd he) []
  rw [load_eq (s := ⟨_, [], fs, directory⟩) hg hfiles, mapError_eq_ok] at h
  refine read_of_lookUp h ?_
  have hnone : g.layer.lookup f.name = none := by
    rw [Given.lookup_layer, hgiven]
    cases f <;> first | rfl | exact absurd rfl hf
  have henv : (Variables.layer []).lookup f.name = none := rfl
  rw [lookUp_cons_of_none hnone, lookUp_cons_of_none henv, lookUp_cons, hv]
  rfl

end Reading

/-! ## Sources together -/

/-- The file that the sources name: by a flag, or else in the environment. -/
def Sources.named (s : Sources) (g : Given) : Option String :=
  g.configPath.or (Variables.find? s.environment "FUNCWORKER_CONFIG_PATH")

/-- The document that the sources' file holds, and the settings to which that file alone leads:
there is no file, or there is a named one, which extends no other. -/
inductive Sources.File (s : Sources) (g : Given) : Layer → Settings → Prop
  | absent (hg : g.configPath = none)
    (hm : ∀ path ∈ usualPaths s.environment s.directory,
      s.files.node (Path.resolve s.directory path) = .missing) : s.File g [] .default
  | named {path text doc F} (hp : s.named g = some path)
    (ht : s.files.node (Path.resolve s.directory path) = .file text)
    (hd : readDocument (Path.resolve s.directory path) text = .ok doc)
    (he : doc.lookup "extends" = none)
    (hF : load ⟨["--config-path=" ++ path], [], s.files, s.directory⟩ = .ok F) : s.File g doc F

/-- Each of the sources is accepted alone: the command line gives `g`, the environment leads to the
settings `E`, and the file holds the document `doc` and leads to the settings `F`. -/
structure Sources.Loads (s : Sources) (g : Given) (E : Settings) (doc : Layer) (F : Settings) :
    Prop where
  words : Flag.read s.words = .ok g
  environment : load ⟨[], s.environment, [], s.directory⟩ = .ok E
  file : s.File g doc F

deriving instance DecidableEq for Node

/-- What is accepted of the sources, each alone. -/
theorem Sources.loads_getD (s : Sources) (path text : String)
    (hg : (Flag.read s.words).toOption.isSome = true)
    (hE : (load ⟨[], s.environment, [], s.directory⟩).toOption.isSome = true)
    (hp : s.named ((Flag.read s.words).toOption.getD .nothing) = some path)
    (ht : s.files.node (Path.resolve s.directory path) = .file text)
    (hd : (readDocument (Path.resolve s.directory path) text).toOption.any
      (fun doc => (doc.lookup "extends").isNone) = true)
    (hF : (load ⟨["--config-path=" ++ path], [], s.files, s.directory⟩).toOption.isSome = true) :
    s.Loads ((Flag.read s.words).toOption.getD .nothing)
      ((load ⟨[], s.environment, [], s.directory⟩).toOption.getD .default)
      ((readDocument (Path.resolve s.directory path) text).toOption.getD [])
      ((load ⟨["--config-path=" ++ path], [], s.files, s.directory⟩).toOption.getD .default) := by
  cases hdoc : readDocument (Path.resolve s.directory path) text with
  | error f =>
    rw [hdoc] at hd
    cases hd
  | ok doc =>
    rw [hdoc] at hd
    exact ⟨eq_ok_getD hg _, eq_ok_getD hE _,
      .named hp ht hdoc (Option.isNone_iff_eq_none.1 hd) (eq_ok_getD hF _)⟩

section Together

variable {s : Sources} {g : Given} {E F : Settings} {doc : Layer}

/-- Together they are read as the layers of the command line, of the environment and of the file. -/
theorem Sources.Loads.load_eq (h : s.Loads g E doc F) :
    load s =
      (Settings.ofLayers [g.layer, Variables.layer s.environment, doc]).mapError .merge := by
  cases h.file with
  | absent hg hm =>
    have hfiles : readFiles s.files s.environment s.directory g.configPath = ([], []) := by
      rw [hg]
      exact readFiles_none (firstOf_missing hm [])
    rw [Config.load_eq h.words hfiles]
    have hlook : ∀ name, lookUp [g.layer, Variables.layer s.environment] name =
        lookUp [g.layer, Variables.layer s.environment, []] name := by
      intro name
      simp only [lookUp_cons, List.lookup_nil]
    rw [Settings.ofLayers_congr hlook]
  | @named path text _ _ hp ht hd he hF =>
    have hread := readFile_document ht hd he
    have hfiles : readFiles s.files s.environment s.directory g.configPath = ([doc], []) := by
      cases hg : g.configPath with
      | some path' =>
        rw [Sources.named, hg] at hp
        cases hp
        exact readFiles_some hread s.environment
      | none =>
        rw [Sources.named, hg, Option.none_or] at hp
        have husual : ∃ paths, usualPaths s.environment s.directory = path :: paths := by
          unfold usualPaths
          rw [hp]
          exact ⟨_, rfl⟩
        obtain ⟨paths, hpaths⟩ := husual
        have hfirst : firstOf s.files s.directory [] (usualPaths s.environment s.directory) =
            (some [doc], []) := by
          rw [hpaths, firstOf, hread]
          rfl
        exact readFiles_none hfirst
    exact Config.load_eq h.words hfiles

end Together

/-! ## Precedence -/

namespace Setting

/-- The value of a setting from the first source that gives it: the command line, the environment,
the file, or else the default. -/
def layered (f : Setting) (g : Given) (env : Layer) (E : Settings) (doc : Layer) (F : Settings) :
    f.Value :=
  (g.value f).getD <|
    if (env.lookup f.name).isSome then f.get E
    else if (doc.lookup f.name).isSome then f.get F
    else f.get .default

/-- The command line does not give the setting, and the environment and the file give it as tables
that name different values. -/
def clashes (f : Setting) (g : Given) (env doc : Layer) : Bool :=
  (g.value f).isNone &&
    match env.lookup f.name, doc.lookup f.name with
    | some v, some w => differ v w
    | _, _ => false

/-- **A setting comes from the first source that gives it**, or there is a clash. -/
theorem ofLayers_eq {f : Setting} {g : Given} {env doc : Layer} {E F : Settings}
    (hE : g.value f = none → ∀ {v}, env.lookup f.name = some v → f.read v = .ok (f.get E))
    (hF : g.value f = none → ∀ {v}, doc.lookup f.name = some v → f.read v = .ok (f.get F)) :
    f.ofLayers [g.layer, env, doc] =
      if f.clashes g env doc then .error .notOneKey else .ok (f.layered g env E doc F) := by
  unfold layered clashes
  cases hg : g.value f with
  | some v =>
    rw [ofLayers_given hg]
    rfl
  | none =>
    have hnone : g.layer.lookup f.name = none := by
      rw [g.lookup_layer, hg]
      rfl
    rw [ofLayers, setting, lookUp_cons_of_none hnone, lookUp_cons]
    cases henv : env.lookup f.name with
    | none =>
      cases hdoc : doc.lookup f.name with
      | none => simp [hdoc, lookUp]
      | some w => simp [hdoc, lookUp, hF hg hdoc]
    | some v =>
      cases hdoc : doc.lookup f.name with
      | none => simp [hdoc, lookUp, hE hg henv]
      | some w =>
        simp [hdoc, lookUp, read_overlay (hE hg henv) (hF hg hdoc)]

/-- The settings with given values. -/
def collect (values : (f : Setting) → f.Value) : Settings :=
  ⟨values .strategy, values .entryPoint, values .onInvokeError, values .requestLogging,
    values .logFilter, values .logFormat⟩

theorem get_collect (values : (f : Setting) → f.Value) (f : Setting) :
    f.get (collect values) = values f := by
  cases f <;> rfl

end Setting

section Precedence

variable {s : Sources} {g : Given} {E F : Settings} {doc : Layer}

/-- Each setting is read as its source alone has it, or there is a clash. -/
theorem Sources.Loads.setting_eq (h : s.Loads g E doc F) (f : Setting) :
    f.ofLayers [g.layer, Variables.layer s.environment, doc] =
      if f.clashes g (Variables.layer s.environment) doc then .error .notOneKey
      else .ok (f.layered g (Variables.layer s.environment) E doc F) := by
  have hlogging : g.value f = none → f ≠ .requestLogging := by
    rintro hg rfl
    cases hg
  refine Setting.ofLayers_eq (fun hg v hv => ?_) (fun hg v hv => ?_)
  · exact read_of_environment h.environment (hlogging hg) hv
  · cases h.file with
    | absent => cases hv
    | named hp ht hd he hF => exact read_of_file ht hd he hF (hlogging hg) hv

/-- A clash is a fault of the sources together. -/
theorem Sources.Loads.load_of_clashes (h : s.Loads g E doc F) {f : Setting}
    (hf : f.clashes g (Variables.layer s.environment) doc = true) :
    load s = .error (.merge .notOneKey) := by
  have herror : f.ofLayers [g.layer, Variables.layer s.environment, doc] = .error .notOneKey := by
    rw [h.setting_eq, hf]
    rfl
  have heach : ∀ f : Setting,
      f.ofLayers [g.layer, Variables.layer s.environment, doc] = .error .notOneKey ∨
      ∃ v, f.ofLayers [g.layer, Variables.layer s.environment, doc] = .ok v := by
    intro f
    rw [h.setting_eq]
    split
    · exact .inl rfl
    · exact .inr ⟨_, rfl⟩
  rw [h.load_eq, ofLayers_eq_error herror heach]
  rfl

/-- Sources that agree on a setting load it as the same, whatever else they say. -/
theorem Sources.Loads.get_congr {s' : Sources} {g' : Given} {E' F' r r' : Settings} {doc' : Layer}
    (h : s.Loads g E doc F) (h' : s'.Loads g' E' doc' F') (hr : load s = .ok r)
    (hr' : load s' = .ok r') {f : Setting} (hg : g.value f = g'.value f)
    (henv : (Variables.layer s.environment).lookup f.name =
      (Variables.layer s'.environment).lookup f.name)
    (hdoc : doc.lookup f.name = doc'.lookup f.name) : f.get r = f.get r' := by
  rw [h.load_eq, mapError_eq_ok] at hr
  rw [h'.load_eq, mapError_eq_ok] at hr'
  have hlook : lookUp [g.layer, Variables.layer s.environment, doc] f.name =
      lookUp [g'.layer, Variables.layer s'.environment, doc'] f.name := by
    simp only [lookUp_cons, Given.lookup_layer, hg, henv, hdoc]
  have hsame := Setting.ofLayers_congr hlook
  rw [get_of_ofLayers hr, get_of_ofLayers hr'] at hsame
  exact Except.ok.inj hsame

/-- **Precedence.** Where the command line, the environment and a file are each accepted alone, they
are accepted together, and each setting but the logging of requests has the value of the first of
them that gives it, or else its default. It has that value whatever the sources say about other
settings. There is one exception: where the command line does not give a setting that the
environment and the file give as tables, with different names in them, the tables make up a table of
two names, which is not accepted. -/
theorem precedence (h : s.Loads g E doc F) :
    let env := Variables.layer s.environment
    ((∀ f : Setting, f.clashes g env doc = false) →
      ∃ r, load s = .ok r ∧ ∀ f : Setting, f ≠ .requestLogging →
        f.get r = f.layered g env E doc F) ∧
    ((∃ f : Setting, f.clashes g env doc = true) → load s = .error (.merge .notOneKey)) ∧
    ∀ s' g' E' doc' F' r r', Sources.Loads s' g' E' doc' F' → load s = .ok r →
      load s' = .ok r' → ∀ f : Setting, g.value f = g'.value f →
      env.lookup f.name = (Variables.layer s'.environment).lookup f.name →
      doc.lookup f.name = doc'.lookup f.name → f.get r = f.get r' := by
  intro env
  refine ⟨fun hclash => ?_, fun ⟨_, hf⟩ => h.load_of_clashes hf,
    fun s' g' E' doc' F' r r' h' hr hr' f => h.get_congr h' hr hr'⟩
  refine ⟨Setting.collect fun f => f.layered g env E doc F, ?_, fun f _ => Setting.get_collect _ f⟩
  rw [h.load_eq, mapError_eq_ok, ofLayers_eq_ok_iff]
  intro f
  rw [h.setting_eq, hclash f, Setting.get_collect]
  rfl

end Precedence

/-- Three sources, of which some give the same setting. -/
def Sources.three : Sources :=
  ⟨["--config-path=/d/f.toml", "-e", "flagged"],
    [("FUNCWORKER_STRATEGY", "module"), ("funcworker_entry_point", "varied")],
    [("/d/f.toml", .file "strategy = \"signature\"\nlog_filter = \"warn\"\nentry_point = \"filed\"")],
    "/d"⟩

theorem precedence_three :
    ∃ r, load .three = .ok r ∧ r.entryPoint = "flagged" ∧ r.strategy = .module ∧
      r.logFilter = "warn" ∧ r.logFormat = .json ∧ r.onInvokeError = .crash := by
  have hloads := Sources.loads_getD .three "/d/f.toml"
    "strategy = \"signature\"\nlog_filter = \"warn\"\nentry_point = \"filed\""
    (by decide +kernel) (by decide +kernel) (by decide +kernel) (by decide +kernel)
    (by decide +kernel) (by decide +kernel)
  obtain ⟨r, hr, hget⟩ := (precedence hloads).1 fun f => by cases f <;> decide +kernel
  exact ⟨r, hr, (hget .entryPoint (by decide)).trans (by decide +kernel),
    (hget .strategy (by decide)).trans (by decide +kernel),
    (hget .logFilter (by decide)).trans (by decide +kernel),
    (hget .logFormat (by decide)).trans (by decide +kernel),
    (hget .onInvokeError (by decide)).trans (by decide +kernel)⟩

/-- An environment and a file that give a setting as tables with different names. -/
def Sources.tables : Sources :=
  ⟨["--config-path", "/d/funcworker.toml"], [("FUNCWORKER_STRATEGY", "\x7bmodule=1.0e999\x7d")],
    [("/d/funcworker.toml", .file "strategy = \x7b signature = inf \x7d\n")], "/d"⟩

/-- Sources that are accepted alone need not be accepted together. -/
theorem refused_tables :
    (∃ g E doc F, Sources.Loads .tables g E doc F ∧ g.strategy = none ∧ E.strategy = .module ∧
      F.strategy = .signature) ∧ load .tables = .error (.merge .notOneKey) := by
  refine ⟨⟨_, _, _, _, Sources.loads_getD .tables "/d/funcworker.toml"
    "strategy = \x7b signature = inf \x7d\n"
    (by decide +kernel) (by decide +kernel) (by decide +kernel) (by decide +kernel)
    (by decide +kernel) (by decide +kernel), by decide +kernel, by decide +kernel,
    by decide +kernel⟩, ?_⟩
  have hclash : ∀ x : Except LoadError Settings, (match x with
      | .error (.merge .notOneKey) => true
      | _ => false) = true → x = .error (.merge .notOneKey) := by
    intro x hx
    split at hx
    · rfl
    · cases hx
  exact hclash _ (by decide +kernel)

/-! ## The logging of requests -/

/-- Whether requests are logged by the order of the sources: the flag, the environment, the file,
and else not. -/
def Sources.layeredLogging (s : Sources) (g : Given) : Except ValueFault Bool :=
  if g.requestLogging then .ok true
  else
    let (files, _) := readFiles s.files s.environment s.directory g.configPath
    setting (Variables.layer s.environment :: files) "request_logging" flagOf false

/-- **Whether requests are logged is up to the flag alone.** The command line's layer always says
whether the flag is there, so the environment and the file are not heard: the order of the sources
is kept just if the flag is there or they would have come to the same without it. -/
theorem requestLogging_flag {s : Sources} {g : Given} {r : Settings}
    (hg : Flag.read s.words = .ok g) (h : load s = .ok r) :
    r.requestLogging = g.requestLogging ∧ r.options = ⟨r.onInvokeError, g.requestLogging⟩ ∧
      (s.layeredLogging g = .ok r.requestLogging ↔
        g.requestLogging = true ∨ s.layeredLogging g = .ok false) := by
  obtain ⟨g', files, hg', hr⟩ := exists_given_of_load h
  cases hg.symm.trans hg'
  have hflag : r.requestLogging = g.requestLogging := by
    have hget := get_of_ofLayers hr .requestLogging
    rw [Setting.ofLayers_given (show g.value .requestLogging = some g.requestLogging from rfl)]
      at hget
    exact (Except.ok.inj hget).symm
  refine ⟨hflag, by rw [Settings.options, hflag], ?_⟩
  rw [hflag, Sources.layeredLogging]
  cases g.requestLogging <;> simp

/-- A flag that is there. -/
theorem requestLogging_flag_given :
    ∃ g r, Flag.read ["-r"] = .ok g ∧ load ⟨["-r"], [], [], "/d"⟩ = .ok r ∧
      r.requestLogging = true := by
  have hg := eq_ok_getD (x := Flag.read ["-r"]) (by decide +kernel) .nothing
  have hr := eq_ok_getD (x := load ⟨["-r"], [], [], "/d"⟩) (by decide +kernel) .default
  exact ⟨_, _, hg, hr, (requestLogging_flag hg hr).1.trans (by decide +kernel)⟩

/-- An environment that asks for the logging of requests is not heard. -/
theorem requestLogging_masked :
    let s : Sources := ⟨[], [("FUNCWORKER_REQUEST_LOGGING", "true")], [], "/d"⟩
    ∃ r, load s = .ok r ∧ r.requestLogging = false ∧ s.layeredLogging .nothing = .ok true := by
  intro s
  have hr := eq_ok_getD (x := load s) (by decide +kernel) .default
  exact ⟨_, hr, by decide +kernel, eq_ok_of_toOption (by decide +kernel)⟩

end ScriptWorker.Config
