import Huginn.Core.Load

/-!
# What the environment does to a config

Each variable has a rule that says which values it can use (`envRules`). Where the value is one of
them the field is set to what it means, and any other field stays as it is
(`fst_applyEnvOverrides`). A value that is refused is reported, by one message that begins with the
name of the variable (`forall₂_reports`).

A variable whose value is not Unicode is not looked at. So the messages stand for the variables that
are set to something unusable exactly when there is no such variable
(`applyEnvOverrides_exact_iff`).
-/

namespace Huginn

variable {F : Type}

/-! ### What the variables mean -/

/-- `true` or `1`, `false` or `0`, in any case. -/
def boolWord (v : String) : Option Bool :=
  if toLowercase v = "true" ∨ toLowercase v = "1" then some true
  else if toLowercase v = "false" ∨ toLowercase v = "0" then some false
  else none

/-- The text of an IP address. -/
def addressText (v : String) : Option String := (IpAddr.parse v).map fun _ => v

/-- A number of 16 bits. -/
def portNumber (v : String) : Option UInt16 := (parseUnsigned 0xFFFF v).map .ofNat

/-- `json` or `pretty`, in any case. -/
def formatWord (v : String) : Option LogFormat :=
  if toLowercase v = "json" then some .json
  else if toLowercase v = "pretty" then some .pretty
  else none

/-- The variables, and which values each of them can use. -/
def envRules : List (String × (String → Bool)) :=
  [("INFLUX_URL", fun _ => true), ("INFLUX_ORG", fun _ => true), ("INFLUX_BUCKET", fun _ => true),
    ("INFLUX_TOKEN_FILE", fun _ => true),
    ("HUGINN_UI_ENABLED", fun v => (boolWord v).isSome),
    ("HUGINN_UI_BIND", fun v => (addressText v).isSome),
    ("HUGINN_UI_PORT", fun v => (portNumber v).isSome),
    ("HUGINN_METRICS_ENABLED", fun v => (boolWord v).isSome),
    ("HUGINN_METRICS_BIND", fun v => (addressText v).isSome),
    ("HUGINN_METRICS_PORT", fun v => (portNumber v).isSome),
    ("HUGINN_METRICS_API_KEY_FILE", fun _ => true),
    ("HUGINN_LOG_FORMAT", fun v => (formatWord v).isSome), ("HUGINN_LOG_LEVEL", fun _ => true)]

/-- What a field becomes: the meaning of the variable where it has one, and else what it was. -/
def EnvVar.over {V : Type} (var : EnvVar) (meaning : String → Option V) (previous : V) : V :=
  match var with
  | .value v => (meaning v).getD previous
  | .unset | .notUnicode => previous

/-- The config that the variables ask for. -/
def AppConfig.over (env : String → EnvVar) (cfg : AppConfig F) : AppConfig F :=
  { cfg with
    influx.url := (env "INFLUX_URL").over some cfg.influx.url
    influx.org := (env "INFLUX_ORG").over some cfg.influx.org
    influx.bucket := (env "INFLUX_BUCKET").over some cfg.influx.bucket
    influx.tokenFile := (env "INFLUX_TOKEN_FILE").over some cfg.influx.tokenFile
    ui.enabled := (env "HUGINN_UI_ENABLED").over boolWord cfg.ui.enabled
    ui.bind := (env "HUGINN_UI_BIND").over addressText cfg.ui.bind
    ui.port := (env "HUGINN_UI_PORT").over portNumber cfg.ui.port
    metrics.enabled := (env "HUGINN_METRICS_ENABLED").over boolWord cfg.metrics.enabled
    metrics.bind := (env "HUGINN_METRICS_BIND").over addressText cfg.metrics.bind
    metrics.port := (env "HUGINN_METRICS_PORT").over portNumber cfg.metrics.port
    metrics.apiKeyFile :=
      (env "HUGINN_METRICS_API_KEY_FILE").over (fun v => some (some v)) cfg.metrics.apiKeyFile
    log.format := (env "HUGINN_LOG_FORMAT").over formatWord cfg.log.format
    log.level := (env "HUGINN_LOG_LEVEL").over some cfg.log.level }

/-- The variable is set, to something that the rule does not allow or that is not Unicode. -/
def EnvVar.unusable (rule : String → Bool) : EnvVar → Bool
  | .unset => false
  | .notUnicode => true
  | .value v => !rule v

/-- The variables that are set but cannot be used. -/
def unusableVars (env : String → EnvVar) : List String :=
  (envRules.filter fun r => (env r.1).unusable r.2).map Prod.fst

/-- The message is about the variable. -/
def Reports (name warning : String) : Prop := startsWith warning (name ++ "='") = true

/-- Every field has the value that the variables ask for, and there is one message for each variable
that is set but cannot be used. -/
structure ExactOrReported (env : String → EnvVar) (cfg : AppConfig F)
    (out : AppConfig F × List String) : Prop where
  config : out.1 = cfg.over env
  reported : List.Forall₂ Reports (unusableVars env) out.2

/-! ### One variable -/

/-- What an override does: a value with a meaning sets the field to it, any other one gives a
message about the variable. -/
structure Overrides {V : Type} (name : String) (meaning : String → Option V)
    (get : AppConfig F → V) (set : AppConfig F → V → AppConfig F) (f : Override F) : Prop where
  set_get : ∀ cfg, set cfg (get cfg) = cfg
  taken : ∀ cfg v x, meaning v = some x → f cfg v = .ok (set cfg x)
  refused : ∀ cfg v, meaning v = none → ∃ w, f cfg v = .error w ∧ Reports name w

theorem reports_append (name rest : String) : Reports name (name ++ ("='" ++ rest)) := by
  rw [Reports, startsWith, List.isPrefixOf_iff_prefix, ← String.append_assoc,
    String.toList_append (t := rest)]
  exact List.prefix_append _ _

/-- The config after one variable. -/
def overrideConfig (env : String → EnvVar) (cfg : AppConfig F) (o : String × Override F) :
    AppConfig F := (applyOverride env (cfg, []) o).1

theorem fst_applyOverride (env : String → EnvVar) (st : AppConfig F × List String)
    (o : String × Override F) : (applyOverride env st o).1 = overrideConfig env st.1 o := by
  unfold overrideConfig applyOverride
  cases (env o.1).ok with
  | none => rfl
  | some v =>
    dsimp only
    cases o.2 st.1 v with
    | error w => rfl
    | ok cfg => rfl

theorem fst_foldl_applyOverride (env : String → EnvVar) (os : List (String × Override F))
    (st : AppConfig F × List String) :
    (os.foldl (applyOverride env) st).1 = os.foldl (overrideConfig env) st.1 := by
  induction os generalizing st with
  | nil => rfl
  | cons o os ih => rw [List.foldl_cons, List.foldl_cons, ih, fst_applyOverride]

theorem Overrides.config_eq {V : Type} {name : String} {meaning : String → Option V}
    {get : AppConfig F → V} {set : AppConfig F → V → AppConfig F} {f : Override F}
    (h : Overrides name meaning get set f) (env : String → EnvVar) (cfg : AppConfig F) :
    overrideConfig env cfg (name, f) = set cfg ((env name).over meaning (get cfg)) := by
  unfold overrideConfig applyOverride
  cases henv : env name with
  | unset => simp [EnvVar.ok, EnvVar.over, h.set_get]
  | notUnicode => simp [EnvVar.ok, EnvVar.over, h.set_get]
  | value v =>
    cases hv : meaning v with
    | none =>
      obtain ⟨w, hw, -⟩ := h.refused cfg v hv
      simp [EnvVar.ok, EnvVar.over, hw, hv, h.set_get]
    | some x => simp [EnvVar.ok, EnvVar.over, h.taken cfg v x hv, hv]

/-- A text that is taken for what it is, whatever it is. -/
theorem overrides_always {V : Type} (name : String) (wrap : String → V) {get : AppConfig F → V}
    {set : AppConfig F → V → AppConfig F} (h : ∀ cfg, set cfg (get cfg) = cfg) :
    Overrides name (fun v => some (wrap v)) get set
      (overrideText fun cfg v => set cfg (wrap v)) where
  set_get := h
  taken cfg v x hx := by
    obtain rfl := Option.some.inj hx
    rfl
  refused cfg v hv := by cases hv

theorem overrides_text (name : String) (get : AppConfig F → String)
    {set : AppConfig F → String → AppConfig F} (h : ∀ cfg, set cfg (get cfg) = cfg) :
    Overrides name some get set (overrideText set) :=
  overrides_always name id h

theorem overrides_apiKeyFile : Overrides "HUGINN_METRICS_API_KEY_FILE" (fun v => some (some v))
    (·.metrics.apiKeyFile) (fun cfg path => { cfg with metrics.apiKeyFile := path })
    (overrideText (F := F) fun cfg v => { cfg with metrics.apiKeyFile := some v }) :=
  overrides_always "HUGINN_METRICS_API_KEY_FILE" some fun _ => rfl

theorem overrides_bool (name : String) {field : String} {get : AppConfig F → Bool}
    {set : AppConfig F → Bool → AppConfig F} (h : ∀ cfg, set cfg (get cfg) = cfg) :
    Overrides name boolWord get set (overrideBool name field get set) where
  set_get := h
  taken cfg v x hx := by
    unfold boolWord at hx
    simp only [overrideBool]
    split_ifs at hx ⊢
    · obtain rfl := Option.some.inj hx
      rfl
    · obtain rfl := Option.some.inj hx
      rfl
  refused cfg v hv := by
    unfold boolWord at hv
    simp only [overrideBool]
    split_ifs at hv ⊢
    refine ⟨_, rfl, ?_⟩
    simp only [String.append_assoc]
    exact reports_append name _

theorem overrides_bind (name : String) {field : String} {get : AppConfig F → String}
    {set : AppConfig F → String → AppConfig F} (h : ∀ cfg, set cfg (get cfg) = cfg) :
    Overrides name addressText get set (overrideBind name field get set) where
  set_get := h
  taken cfg v x hx := by
    obtain ⟨addr, haddr, rfl⟩ := Option.map_eq_some_iff.mp hx
    simp only [overrideBind, haddr]
  refused cfg v hv := by
    simp only [overrideBind, Option.map_eq_none_iff.mp hv]
    refine ⟨_, rfl, ?_⟩
    simp only [String.append_assoc]
    exact reports_append name _

theorem overrides_port (name : String) {field : String} {get : AppConfig F → UInt16}
    {set : AppConfig F → UInt16 → AppConfig F} (h : ∀ cfg, set cfg (get cfg) = cfg) :
    Overrides name portNumber get set (overridePort name field get set) where
  set_get := h
  taken cfg v x hx := by
    obtain ⟨n, hn, rfl⟩ := Option.map_eq_some_iff.mp hx
    simp only [overridePort, hn]
  refused cfg v hv := by
    simp only [overridePort, Option.map_eq_none_iff.mp hv]
    refine ⟨_, rfl, ?_⟩
    simp only [String.append_assoc]
    exact reports_append name _

theorem overrides_logFormat : Overrides "HUGINN_LOG_FORMAT" formatWord (·.log.format)
    (fun cfg format => { cfg with log.format := format }) (overrideLogFormat (F := F)) where
  set_get _ := rfl
  taken cfg v x hx := by
    unfold formatWord at hx
    simp only [overrideLogFormat]
    split_ifs at hx ⊢
    · obtain rfl := Option.some.inj hx
      rfl
    · obtain rfl := Option.some.inj hx
      rfl
  refused cfg v hv := by
    unfold formatWord at hv
    simp only [overrideLogFormat]
    split_ifs at hv ⊢
    refine ⟨_, rfl, ?_⟩
    simp only [String.append_assoc]
    exact reports_append "HUGINN_LOG_FORMAT" _

/-! ### All variables -/

/-- Each field takes what its variable asks for, and every other field stays as it is. -/
theorem fst_applyEnvOverrides (env : String → EnvVar) (cfg : AppConfig F) :
    (applyEnvOverrides env cfg).1 = cfg.over env := by
  unfold applyEnvOverrides envOverrides
  rw [fst_foldl_applyOverride]
  simp only [List.foldl_cons, List.foldl_nil]
  rw [(overrides_text "INFLUX_URL" (·.influx.url) fun _ => rfl).config_eq]
  rw [(overrides_text "INFLUX_ORG" (·.influx.org) fun _ => rfl).config_eq]
  dsimp only
  rw [(overrides_text "INFLUX_BUCKET" (·.influx.bucket) fun _ => rfl).config_eq]
  dsimp only
  rw [(overrides_text "INFLUX_TOKEN_FILE" (·.influx.tokenFile) fun _ => rfl).config_eq]
  dsimp only
  rw [(overrides_bool "HUGINN_UI_ENABLED" fun _ => rfl).config_eq]
  dsimp only
  rw [(overrides_bind "HUGINN_UI_BIND" fun _ => rfl).config_eq]
  dsimp only
  rw [(overrides_port "HUGINN_UI_PORT" fun _ => rfl).config_eq]
  dsimp only
  rw [(overrides_bool "HUGINN_METRICS_ENABLED" fun _ => rfl).config_eq]
  dsimp only
  rw [(overrides_bind "HUGINN_METRICS_BIND" fun _ => rfl).config_eq]
  dsimp only
  rw [(overrides_port "HUGINN_METRICS_PORT" fun _ => rfl).config_eq]
  dsimp only
  rw [overrides_apiKeyFile.config_eq]
  dsimp only
  rw [overrides_logFormat.config_eq]
  dsimp only
  rw [(overrides_text "HUGINN_LOG_LEVEL" (·.log.level) fun _ => rfl).config_eq]
  rfl

/-! ### Messages -/

/-- The override follows the rule: it reports what the rule does not allow, and nothing else. -/
def Follows (r : String × (String → Bool)) (o : String × Override F) : Prop :=
  r.1 = o.1 ∧ ∀ cfg v, if r.2 v then ∃ cfg', o.2 cfg v = .ok cfg'
    else ∃ w, o.2 cfg v = .error w ∧ Reports o.1 w

theorem Overrides.follows {V : Type} {name : String} {meaning : String → Option V}
    {get : AppConfig F → V} {set : AppConfig F → V → AppConfig F} {f : Override F}
    (h : Overrides name meaning get set f) :
    Follows (name, fun v => (meaning v).isSome) (name, f) := by
  refine ⟨rfl, fun cfg v => ?_⟩
  split_ifs with hsome
  · obtain ⟨x, hx⟩ := Option.isSome_iff_exists.mp hsome
    exact ⟨_, h.taken cfg v x hx⟩
  · exact h.refused cfg v (Option.not_isSome_iff_eq_none.mp hsome)

theorem follows_envOverrides : List.Forall₂ Follows envRules (envOverrides F) := by
  unfold envRules envOverrides
  refine .cons (overrides_text "INFLUX_URL" (·.influx.url) fun _ => rfl).follows ?_
  refine .cons (overrides_text "INFLUX_ORG" (·.influx.org) fun _ => rfl).follows ?_
  refine .cons (overrides_text "INFLUX_BUCKET" (·.influx.bucket) fun _ => rfl).follows ?_
  refine .cons (overrides_text "INFLUX_TOKEN_FILE" (·.influx.tokenFile) fun _ => rfl).follows ?_
  refine .cons (overrides_bool "HUGINN_UI_ENABLED" fun _ => rfl).follows ?_
  refine .cons (overrides_bind "HUGINN_UI_BIND" fun _ => rfl).follows ?_
  refine .cons (overrides_port "HUGINN_UI_PORT" fun _ => rfl).follows ?_
  refine .cons (overrides_bool "HUGINN_METRICS_ENABLED" fun _ => rfl).follows ?_
  refine .cons (overrides_bind "HUGINN_METRICS_BIND" fun _ => rfl).follows ?_
  refine .cons (overrides_port "HUGINN_METRICS_PORT" fun _ => rfl).follows ?_
  refine .cons overrides_apiKeyFile.follows ?_
  refine .cons overrides_logFormat.follows ?_
  exact .cons (overrides_text "HUGINN_LOG_LEVEL" (·.log.level) fun _ => rfl).follows .nil

/-- The variable is set to a text that the rule does not allow. -/
def EnvVar.refused (rule : String → Bool) : EnvVar → Bool
  | .unset | .notUnicode => false
  | .value v => !rule v

theorem snd_applyOverride {r : String × (String → Bool)} {o : String × Override F}
    (h : Follows r o) (env : String → EnvVar) (st : AppConfig F × List String) :
    ∃ ws, (applyOverride env st o).2 = st.2 ++ ws ∧
      List.Forall₂ Reports (if (env r.1).refused r.2 then [r.1] else []) ws := by
  obtain ⟨hname, hfollows⟩ := h
  unfold applyOverride
  rw [hname]
  cases env o.1 with
  | unset => exact ⟨[], (List.append_nil _).symm, .nil⟩
  | notUnicode => exact ⟨[], (List.append_nil _).symm, .nil⟩
  | value v =>
    have hv := hfollows st.1 v
    simp only [EnvVar.ok, EnvVar.refused]
    split_ifs at hv with hrule
    · obtain ⟨cfg', hcfg'⟩ := hv
      refine ⟨[], ?_, ?_⟩
      · rw [hcfg', List.append_nil]
      · simp [hrule]
    · obtain ⟨w, hw, hreports⟩ := hv
      refine ⟨[w], ?_, ?_⟩
      · rw [hw]
      · simp [hrule, hreports]

/-- There is one message for each value that is refused, in the order of the variables. -/
theorem forall₂_reports (env : String → EnvVar) {rules : List (String × (String → Bool))}
    {os : List (String × Override F)} (h : List.Forall₂ Follows rules os)
    (st : AppConfig F × List String) : ∃ ws, (os.foldl (applyOverride env) st).2 = st.2 ++ ws ∧
      List.Forall₂ Reports ((rules.filter fun r => (env r.1).refused r.2).map Prod.fst) ws := by
  induction h generalizing st with
  | nil => exact ⟨[], (List.append_nil _).symm, .nil⟩
  | @cons r o rules os hr hrest ih =>
    obtain ⟨ws, hws, hone⟩ := snd_applyOverride hr env st
    obtain ⟨ws', hws', hreports⟩ := ih (applyOverride env st o)
    have hnames : ((r :: rules).filter fun r => (env r.1).refused r.2).map Prod.fst =
        (if (env r.1).refused r.2 then [r.1] else []) ++
          (rules.filter fun r => (env r.1).refused r.2).map Prod.fst := by
      rw [List.filter_cons]
      split_ifs <;> rfl
    refine ⟨ws ++ ws', ?_, ?_⟩
    · rw [List.foldl_cons, hws', hws, List.append_assoc]
    · rw [hnames]
      exact List.rel_append hone hreports

/-! ### Variables that are not Unicode -/

theorem EnvVar.refused_eq_unusable {var : EnvVar} (h : var ≠ .notUnicode) (rule : String → Bool) :
    var.refused rule = var.unusable rule := by
  cases var with
  | unset => rfl
  | notUnicode => exact absurd rfl h
  | value v => rfl

theorem EnvVar.unusable_of_refused {var : EnvVar} {rule : String → Bool}
    (h : var.refused rule = true) : var.unusable rule = true := by
  cases var with
  | unset => exact h
  | notUnicode => rfl
  | value v => exact h

/-- As many variables are refused as cannot be used, only when none is not Unicode. -/
theorem ne_notUnicode_of_length_eq {env : String → EnvVar} {rules : List (String × (String → Bool))}
    (h : (rules.filter fun r => (env r.1).refused r.2).length =
      (rules.filter fun r => (env r.1).unusable r.2).length) :
    ∀ r ∈ rules, env r.1 ≠ .notUnicode := by
  intro r hr hvar
  have hsub : List.Sublist (rules.filter fun r => (env r.1).refused r.2)
      (rules.filter fun r => (env r.1).unusable r.2) :=
    List.monotone_filter_right rules fun r => EnvVar.unusable_of_refused
  have hmem : r ∈ rules.filter fun r => (env r.1).unusable r.2 := by
    rw [List.mem_filter, hvar]
    exact ⟨hr, rfl⟩
  rw [← hsub.eq_of_length h, List.mem_filter, hvar] at hmem
  cases hmem.2

/-- **The environment is applied exactly, or reported, unless a variable is not Unicode.** Every
field always has the value that its variable asks for, and else the one it had. There is one message
for each variable that is set but cannot be used if and only if none is set to something that is not
Unicode, which nobody hears of. -/
theorem applyEnvOverrides_exact_iff (env : String → EnvVar) (cfg : AppConfig F) :
    ExactOrReported env cfg (applyEnvOverrides env cfg) ↔
      ∀ r ∈ envRules, env r.1 ≠ .notUnicode := by
  obtain ⟨ws, hws, hreports⟩ := forall₂_reports env (follows_envOverrides (F := F)) (cfg, [])
  rw [List.nil_append] at hws
  constructor
  · intro h
    have hreported := h.reported
    unfold applyEnvOverrides unusableVars at hreported
    rw [hws] at hreported
    apply ne_notUnicode_of_length_eq
    have hlength := hreports.length_eq.trans hreported.length_eq.symm
    rwa [List.length_map, List.length_map] at hlength
  · intro h
    refine ⟨fst_applyEnvOverrides env cfg, ?_⟩
    have hnames : (envRules.filter fun r => (env r.1).unusable r.2) =
        envRules.filter fun r => (env r.1).refused r.2 :=
      List.filter_congr fun r hr => (EnvVar.refused_eq_unusable (h r hr) r.2).symm
    unfold applyEnvOverrides unusableVars
    rw [hws, hnames]
    exact hreports

/-- An environment in which one variable is set to something that is not Unicode. -/
def garbledPort (name : String) : EnvVar :=
  if name = "HUGINN_UI_PORT" then .notUnicode else .unset

/-- Nothing is said about it. -/
theorem garbled_port_unreported :
    unusableVars garbledPort = ["HUGINN_UI_PORT"] ∧
    (applyEnvOverrides garbledPort (AppConfig.ofInflux (F := Decimal) .default [])).2 = [] ∧
    ¬ ExactOrReported garbledPort (AppConfig.ofInflux (F := Decimal) .default [])
      (applyEnvOverrides garbledPort (.ofInflux .default [])) := by
  have hvars : unusableVars garbledPort = ["HUGINN_UI_PORT"] := by decide
  refine ⟨hvars, rfl, fun h => ?_⟩
  have hlength := h.reported.length_eq
  rw [hvars] at hlength
  cases hlength

end Huginn
