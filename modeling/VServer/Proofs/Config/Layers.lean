/-
Which source decides a setting.

Every source of settings sets some of them and leaves the others open, so each of them is a layer:
the two files are layers as they stand, and the environment and the command line say the same as a
layer would (`Environment.layer`, `Flags.layer`).  Settings under a stack of layers are those of the
highest layer that sets them, each for itself (`decided_foldr_apply`), which is an induction on the
stack.  The features that the command line switches on and off one by one are no layer, and they are
put on top.

Loading fails for three reasons, and none of them hides another: whether one source can be
understood does not depend on what the others say.

So the proof has two halves that do not meet before the end.  The first one is about settings and
knows nothing of failure: a layer that is put on top decides what it sets and leaves the rest as it
was (`Decided.cons`).  The second one is about failure and knows nothing of settings: each source
is broken or it is read as a layer, and in a chain of steps none of which looks at the others the
whole fails if and only if one of them does (`fails_bind_iff`).  `load_decided_by_highest` puts
them together.
-/
import VServer.Config

namespace VServer

/-! ### Settings under a stack of layers

The highest layer comes first.  Each setting is looked for in the layers on its own, so one source
can decide where V is and another one the journal file.
-/

namespace Layer

/-- Each of the settings is that of the first layer that sets it, and the usual one if none does. -/
structure Decided (layers : List Layer) (s : Settings) : Prop where
  features : s.features = (layers.findSome? Layer.features).getD .full
  debug : s.debug = (layers.findSome? Layer.debug).getD false
  logPath : s.logPath = layers.findSome? Layer.logPath
  vroot : s.vroot = layers.findSome? Layer.vroot
  indexing : s.indexing = (layers.findSome? Layer.indexing).getD .production
  targetOs : s.targetOs = layers.findSome? Layer.targetOs

theorem decided_nil : Decided [] {} :=
  ⟨rfl, rfl, rfl, rfl, rfl, rfl⟩

theorem findSome?_cons_getD {α β : Type} (f : α → Option β) (a : α) (as : List α) (usual : β) :
    (f a).getD ((as.findSome? f).getD usual) = ((a :: as).findSome? f).getD usual := by
  rw [List.findSome?_cons]
  cases f a with
  | none => rfl
  | some b => rfl

theorem findSome?_cons_or {α β : Type} (f : α → Option β) (a : α) (as : List α) :
    (f a).or (as.findSome? f) = (a :: as).findSome? f := by
  rw [List.findSome?_cons]
  cases f a with
  | none => rfl
  | some b => rfl

/-- One more layer on top of the others decides what it sets. -/
theorem Decided.cons {layers : List Layer} {s : Settings} (h : Decided layers s) (layer : Layer) :
    Decided (layer :: layers) (layer.apply s) where
  features := by rw [apply, h.features, findSome?_cons_getD]
  debug := by rw [apply, h.debug, findSome?_cons_getD]
  logPath := by rw [apply, h.logPath, findSome?_cons_or]
  vroot := by rw [apply, h.vroot, findSome?_cons_or]
  indexing := by rw [apply, h.indexing, findSome?_cons_getD]
  targetOs := by rw [apply, h.targetOs, findSome?_cons_or]

/-- **Settings under a stack of layers are decided by the highest one that sets them.** -/
theorem decided_foldr_apply (layers : List Layer) : Decided layers (layers.foldr apply {}) := by
  induction layers with
  | nil => exact decided_nil
  | cons layer layers ih => exact ih.cons layer

end Layer

/-! ### The environment and the command line as layers -/

/-- The value of a variable that is not empty. -/
def Environment.filled? (env : Environment) (name : String) : Option String :=
  (env.get? name).filter fun v => !v.isEmpty

/-- What the variables of the environment set. -/
def Environment.layer (env : Environment) : Layer where
  debug := (env.get? "VLS_DEBUG").bind Config.readSwitch?
  vroot := env.filled? "VROOT"
  logPath := env.filled? "VLS_LOG_PATH"

/-- What the flags set, but for the features. -/
def Flags.layer (flags : Flags) : Layer where
  debug := if flags.debug then some true else none
  vroot := flags.vroot
  logPath := flags.logPath
  indexing := if flags.deterministicIndex then some .deterministic else none

namespace FeatureSet

theorem contains_foldl_enable (fs : List Feature) (s : FeatureSet) (f : Feature) :
    (fs.foldl enable s).contains f = true ↔ f ∈ fs ∨ s.contains f = true := by
  induction fs generalizing s with
  | nil => simp
  | cons g fs ih =>
      rw [List.foldl_cons, ih]
      simp only [contains_enable, Bool.or_eq_true, decide_eq_true_eq, List.mem_cons]
      rw [or_left_comm, or_assoc]

theorem contains_foldl_disable (fs : List Feature) (s : FeatureSet) (f : Feature) :
    (fs.foldl disable s).contains f = true ↔ f ∉ fs ∧ s.contains f = true := by
  induction fs generalizing s with
  | nil => simp
  | cons g fs ih =>
      rw [List.foldl_cons, ih]
      simp only [contains_disable, Bool.and_eq_true, Bool.not_eq_true', decide_eq_false_iff_not,
        List.mem_cons, not_or]
      rw [and_left_comm, and_assoc]

end FeatureSet

namespace Flags

/-- Settings with the features that the flags switch on and off. -/
def switched (flags : Flags) (s : Settings) : Settings :=
  { s with
    features :=
      flags.disable.foldl FeatureSet.disable (flags.enable.foldl FeatureSet.enable s.features) }

/-- The flags put their layer on top and then switch features. -/
theorem apply_eq (flags : Flags) (s : Settings) :
    flags.apply s = flags.switched (flags.layer.apply s) := by
  unfold apply switched layer Layer.apply
  congr 1
  · cases flags.debug <;> rfl
  · cases flags.deterministicIndex <;> rfl

/-- Switching a feature off wins over switching it on. -/
theorem contains_switched (flags : Flags) (s : Settings) (f : Feature) :
    (flags.switched s).features.contains f = true ↔
      f ∉ flags.disable ∧ (f ∈ flags.enable ∨ s.features.contains f = true) := by
  rw [switched, FeatureSet.contains_foldl_disable, FeatureSet.contains_foldl_enable]

end Flags

namespace Config

/-! ### What can be understood

For each source there is a condition under which it cannot be used, stated about the files and the
variables alone: a file that is there and is no layer, a file that was named and is missing, and a
variable that is no word for yes or no.  The lemmas say that reading the source fails under exactly
that condition.
-/

/-- The words for yes and for no. -/
def switchWords : Bool → List String
  | true => ["1", "true", "yes", "on"]
  | false => ["0", "false", "no", "off", ""]

/-- A text means yes or no if it is one of the words for it, but for the size of letters and for
blanks around it. -/
def Means (value : String) (b : Bool) : Prop :=
  String.ofList ((Text.trim value.toList).map Char.toLower) ∈ switchWords b

theorem readSwitch?_eq_some_iff {value : String} {b : Bool} :
    readSwitch? value = some b ↔ Means value b := by
  have hapart : ∀ word ∈ switchWords true, word ∉ switchWords false := by decide
  unfold readSwitch? Means
  generalize String.ofList ((Text.trim value.toList).map Char.toLower) = word
  simp only [List.contains_eq_mem, decide_eq_true_eq]
  split
  · rename_i hyes
    cases b with
    | true => exact iff_of_true rfl hyes
    | false => exact iff_of_false (nomatch ·) (hapart word hyes)
  split
  · rename_i hyes hno
    cases b with
    | true => exact iff_of_false (nomatch ·) hyes
    | false => exact iff_of_true rfl hno
  · rename_i hyes hno
    cases b with
    | true => exact iff_of_false (nomatch ·) hyes
    | false => exact iff_of_false (nomatch ·) hno

theorem readSwitch?_eq_none_iff {value : String} :
    readSwitch? value = none ↔ ∀ b, ¬ Means value b := by
  rw [Option.eq_none_iff_forall_ne_some]
  exact forall_congr' fun b => not_congr readSwitch?_eq_some_iff

/-- Something could not be done. -/
def Fails {ε α : Type} (x : Except ε α) : Prop :=
  ∃ e, x = .error e

theorem not_fails_ok {ε α : Type} (a : α) : ¬ Fails (.ok a : Except ε α) := by
  rintro ⟨e, he⟩
  cases he

theorem fails_error {ε α : Type} (e : ε) : Fails (.error e : Except ε α) :=
  ⟨e, rfl⟩

theorem exists_of_bind_ok {ε α β : Type} {x : Except ε α} {f : α → Except ε β} {b : β}
    (h : x >>= f = .ok b) : ∃ a, x = .ok a ∧ f a = .ok b := by
  cases x with
  | error e => cases h
  | ok a => exact ⟨a, rfl, h⟩

/-- Where it does not depend on what came before whether the rest fails, neither hides the other. -/
theorem fails_bind_iff {ε α β : Type} {x : Except ε α} {f : α → Except ε β} {P : Prop}
    (h : ∀ a, Fails (f a) ↔ P) : Fails (x >>= f) ↔ Fails x ∨ P := by
  cases x with
  | error e => exact iff_of_true (fails_error e) (.inl (fails_error e))
  | ok a => exact (h a).trans ⟨.inr, fun hP => hP.resolve_left (not_fails_ok a)⟩

/-- The layer that is found at a path: none where there is no file. -/
def LayerAt (files : Files) (path : String) : Option Layer → Prop
  | none => files.pathExists path = false
  | some layer => files.pathExists path = true ∧
      ∃ text, files.readText path = .ok text ∧ Layer.parse text = some layer

/-- There is a file at the path, and it cannot be read or is no layer. -/
def Broken (files : Files) (path : String) : Prop :=
  files.pathExists path = true ∧
    ((∃ e, files.readText path = .error e) ∨
      ∃ text, files.readText path = .ok text ∧ Layer.parse text = none)

/-- A file is broken, or it is read as the layer that it is. -/
theorem readLayer_cases (files : Files) (path : String) :
    (Fails (readLayer files path) ∧ Broken files path) ∨
      ∃ layer, readLayer files path = .ok layer ∧ LayerAt files path layer ∧
        ¬ Broken files path := by
  unfold readLayer
  by_cases hexists : files.pathExists path = true
  · rw [if_pos hexists]
    cases htext : files.readText path with
    | error e => exact .inl ⟨fails_error _, hexists, .inl ⟨e, htext⟩⟩
    | ok text =>
        cases hlayer : Layer.parse text with
        | none =>
            refine .inl ⟨?_, hexists, .inr ⟨text, htext, hlayer⟩⟩
            simp only [hlayer]
            exact fails_error _
        | some layer =>
            refine .inr ⟨some layer, by simp only [hlayer], ⟨hexists, text, htext, hlayer⟩, ?_⟩
            rintro ⟨-, ⟨e, he⟩ | ⟨text', htext', hnone⟩⟩
            · rw [htext] at he
              cases he
            · obtain rfl := Except.ok.inj (htext.symm.trans htext')
              rw [hlayer] at hnone
              cases hnone
  · rw [if_neg hexists]
    exact .inr ⟨none, rfl, Bool.eq_false_iff.mpr hexists, fun hbroken => hexists hbroken.1⟩

theorem fails_readLayer_iff {files : Files} {path : String} :
    Fails (readLayer files path) ↔ Broken files path := by
  rcases readLayer_cases files path with ⟨hfails, hbroken⟩ | ⟨layer, hread, -, hwhole⟩
  · exact iff_of_true hfails hbroken
  · exact iff_of_false (hread ▸ not_fails_ok layer) hwhole

theorem layerAt_of_readLayer {files : Files} {path : String} {layer : Option Layer}
    (h : readLayer files path = .ok layer) : LayerAt files path layer := by
  rcases readLayer_cases files path with ⟨⟨e, he⟩, -⟩ | ⟨found, hread, hfound, -⟩
  · rw [h] at he
    cases he
  · obtain rfl := Except.ok.inj (h.symm.trans hread)
    exact hfound

/-- The layer of the file that the command line names, if it names one. -/
def OverlayAt (files : Files) : Option String → Option Layer → Prop
  | none, layer => layer = none
  | some path, layer => files.pathExists path = true ∧ LayerAt files path layer

/-- The command line names a file that is missing or broken. -/
def OverlayBroken (files : Files) (config : Option String) : Prop :=
  ∃ path, config = some path ∧ (files.pathExists path = false ∨ Broken files path)

theorem fails_readOverlay_iff {files : Files} {config : Option String} :
    Fails (readOverlay files config) ↔ OverlayBroken files config := by
  cases config with
  | none => exact iff_of_false (not_fails_ok _) fun ⟨_, h, _⟩ => nomatch h
  | some path =>
      have hnamed : OverlayBroken files (some path) ↔
          files.pathExists path = false ∨ Broken files path :=
        ⟨fun ⟨_, h, hbroken⟩ => Option.some.inj h ▸ hbroken, fun h => ⟨path, rfl, h⟩⟩
      rw [hnamed, readOverlay]
      by_cases hexists : files.pathExists path = true
      · rw [if_pos hexists, fails_readLayer_iff, hexists]
        simp
      · rw [if_neg hexists]
        exact iff_of_true (fails_error _) (.inl (Bool.eq_false_iff.mpr hexists))

theorem overlayAt_of_readOverlay {files : Files} {config : Option String} {layer : Option Layer}
    (h : readOverlay files config = .ok layer) : OverlayAt files config layer := by
  cases config with
  | none => exact (Except.ok.inj h).symm
  | some path =>
      rw [readOverlay] at h
      split at h
      · rename_i hexists
        exact ⟨hexists, layerAt_of_readLayer h⟩
      · cases h

/-- A variable that has to be a switch is none. -/
def SwitchBroken (env : Environment) : Prop :=
  ∃ value, env.get? "VLS_DEBUG" = some value ∧ ∀ b, ¬ Means value b

/-- The variables put their layer on top, unless the switch is none. -/
theorem underEnvironment_cases (env : Environment) (s : Settings) :
    (Fails (underEnvironment env s) ∧ SwitchBroken env) ∨
      (underEnvironment env s = .ok (env.layer.apply s) ∧ ¬ SwitchBroken env) := by
  unfold underEnvironment
  cases hvalue : env.get? "VLS_DEBUG" with
  | none =>
      refine .inr ⟨?_, fun ⟨_, h, _⟩ => nomatch hvalue ▸ h⟩
      simp [Except.map, Environment.layer, Environment.filled?, Layer.apply, hvalue]
  | some value =>
      cases hswitch : readSwitch? value with
      | none =>
          refine .inl ⟨?_, value, hvalue, readSwitch?_eq_none_iff.mp hswitch⟩
          simp only [hswitch]
          exact fails_error _
      | some b =>
          refine .inr ⟨?_, ?_⟩
          · simp [Except.map, Environment.layer, Environment.filled?, Layer.apply, hvalue, hswitch]
          · rintro ⟨value', hvalue', hnone⟩
            obtain rfl := Option.some.inj (hvalue.symm.trans hvalue')
            exact hnone b (readSwitch?_eq_some_iff.mp hswitch)

theorem fails_underEnvironment_iff {env : Environment} (s : Settings) :
    Fails (underEnvironment env s) ↔ SwitchBroken env := by
  rcases underEnvironment_cases env s with ⟨hfails, hbroken⟩ | ⟨hok, hwhole⟩
  · exact iff_of_true hfails hbroken
  · exact iff_of_false (hok ▸ not_fails_ok _) hwhole

theorem underEnvironment_ok {env : Environment} {s t : Settings}
    (h : underEnvironment env s = .ok t) : t = env.layer.apply s := by
  rcases underEnvironment_cases env s with ⟨⟨e, he⟩, -⟩ | ⟨hok, -⟩
  · rw [h] at he
    cases he
  · exact Except.ok.inj (h.symm.trans hok)

/-! ### Loading -/

theorem fails_load_iff {files : Files} {env : Environment} {flags : Flags} :
    Fails (load files env flags) ↔
      Broken files (globalPath env) ∨ OverlayBroken files flags.config ∨ SwitchBroken env := by
  have hsettings : ∀ s : Settings,
      Fails (underEnvironment env s >>= fun s => .ok (flags.apply s)) ↔ SwitchBroken env := by
    intro s
    rw [fails_bind_iff (P := False) fun a => iff_false_intro (not_fails_ok _), or_false,
      fails_underEnvironment_iff]
  unfold load
  rw [← fails_readLayer_iff, ← fails_readOverlay_iff]
  exact fails_bind_iff fun base => fails_bind_iff fun overlay => hsettings _

/-- The sources of settings but for the switches of features, the highest one first. -/
def sources (env : Environment) (flags : Flags) (overlay base : Option Layer) : List Layer :=
  flags.layer :: env.layer :: (overlay.toList ++ base.toList)

theorem under_eq (layer : Option Layer) (s : Settings) :
    under layer s = layer.toList.foldr Layer.apply s := by
  cases layer with
  | none => rfl
  | some layer => rfl

theorem apply_sources (env : Environment) (flags : Flags) (overlay base : Option Layer) :
    flags.layer.apply (env.layer.apply (under overlay (under base {}))) =
      (sources env flags overlay base).foldr Layer.apply {} := by
  rw [under_eq, under_eq, sources, List.foldr_cons, List.foldr_cons, List.foldr_append]

/-- Settings that are loaded are those of the sources, with the features of the flags. -/
theorem exists_of_load {files : Files} {env : Environment} {flags : Flags} {s : Settings}
    (h : load files env flags = .ok s) :
    ∃ base overlay, LayerAt files (globalPath env) base ∧
      OverlayAt files flags.config overlay ∧
      s = flags.switched ((sources env flags overlay base).foldr Layer.apply {}) := by
  obtain ⟨base, hbase, h⟩ := exists_of_bind_ok h
  obtain ⟨overlay, hoverlay, h⟩ := exists_of_bind_ok h
  obtain ⟨t, ht, h⟩ := exists_of_bind_ok h
  refine ⟨base, overlay, layerAt_of_readLayer hbase, overlayAt_of_readOverlay hoverlay, ?_⟩
  rw [← Except.ok.inj h, Flags.apply_eq, underEnvironment_ok ht, apply_sources]

/-- **Each setting is decided by the highest source that sets it.**  Loading fails if and only if
one of the files is broken, the file that the command line names is missing, or the variable for
debugging is no switch.  Otherwise the settings are those of the flags, the environment, the file
that the command line names, the user's file, and the usual ones, in this order and each for itself.
A feature is on if the flags do not switch it off, and they switch it on or it is one of the
features that the files set. -/
theorem load_decided_by_highest (files : Files) (env : Environment) (flags : Flags) :
    ((∃ e, load files env flags = .error e) ↔
      Broken files (globalPath env) ∨ OverlayBroken files flags.config ∨ SwitchBroken env) ∧
    ∀ s, load files env flags = .ok s →
      ∃ base overlay, LayerAt files (globalPath env) base ∧
        OverlayAt files flags.config overlay ∧
        s.vroot = (sources env flags overlay base).findSome? Layer.vroot ∧
        s.logPath = (sources env flags overlay base).findSome? Layer.logPath ∧
        s.debug = ((sources env flags overlay base).findSome? Layer.debug).getD false ∧
        s.indexing = ((sources env flags overlay base).findSome? Layer.indexing).getD .production ∧
        s.targetOs = (sources env flags overlay base).findSome? Layer.targetOs ∧
        ∀ f, s.features.contains f = true ↔
          f ∉ flags.disable ∧ (f ∈ flags.enable ∨
            (((sources env flags overlay base).findSome? Layer.features).getD .full).contains f
              = true) := by
  refine ⟨fails_load_iff, fun s h => ?_⟩
  obtain ⟨base, overlay, hbase, hoverlay, rfl⟩ := exists_of_load h
  have hdecided := Layer.decided_foldr_apply (sources env flags overlay base)
  refine ⟨base, overlay, hbase, hoverlay, hdecided.vroot, hdecided.logPath, hdecided.debug,
    hdecided.indexing, hdecided.targetOs, fun f => ?_⟩
  rw [Flags.contains_switched, hdecided.features]

/-- A file of the user that sets where V is, the features and debugging, and another file for the
command line that sets the journal file. -/
def twoFiles : Files where
  nodes := [(["c"], .directory), (["c", "vls"], .directory),
    (["c", "vls", "config.toml"], .file
      (Text.encodeString "vroot = \"/v\"\nfeatures = [\"hover\"]\ndebug = false\n") false),
    (["o.toml"], .file (Text.encodeString "log_path = \"/o.log\"\n") false)]

/-- Variables of which one says nothing. -/
def threeVariables : Environment where
  bindings := [("XDG_CONFIG_HOME", "/c"), ("VROOT", ""), ("VLS_DEBUG", " On")]

/-- A feature that is switched on, and one that is switched on and off. -/
def switches : Flags where
  enable := [.completion, .formatting]
  disable := [.formatting]
  config := some "o.toml"

/-- The variable that is empty does not decide where V is, and the other one wins over the file. -/
theorem load_twoFiles :
    ∃ s base overlay, load twoFiles threeVariables switches = .ok s ∧
      LayerAt twoFiles "/c/vls/config.toml" base ∧ OverlayAt twoFiles (some "o.toml") overlay ∧
      s.vroot = (sources threeVariables switches overlay base).findSome? Layer.vroot ∧
      s.vroot = some "/v" ∧ s.logPath = some "/o.log" ∧ s.debug = true ∧
      s.features.toList = [.completion, .hover] := by
  have hloaded : (load twoFiles threeVariables switches).toOption.map
      (fun s => (s.vroot, s.logPath, s.debug, s.features.toList)) =
        some (some "/v", some "/o.log", true, [.completion, .hover]) := by
    decide +kernel
  have hpath : globalPath threeVariables = "/c/vls/config.toml" := by decide +kernel
  cases h : load twoFiles threeVariables switches with
  | error e =>
      rw [h] at hloaded
      cases hloaded
  | ok s =>
      rw [h] at hloaded
      obtain ⟨base, overlay, hbase, hoverlay, hvroot, -⟩ :=
        (load_decided_by_highest twoFiles threeVariables switches).2 s h
      simp only [Except.toOption, Option.map_some, Option.some.injEq, Prod.mk.injEq] at hloaded
      exact ⟨s, base, overlay, rfl, hpath ▸ hbase, hoverlay, hvroot, hloaded⟩

end Config

end VServer
