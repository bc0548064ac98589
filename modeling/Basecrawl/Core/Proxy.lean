/-
  The dial plan of a scrape: which upstream it goes through, and under which class.

  `truthful_undeclared` is the honesty of the class: without a declared class, no scrape is
  residential.
-/
import Basecrawl.Core.Fetch

namespace Basecrawl.Core

open Text Outcome

/-- `ProxyClass::as_str`. -/
def ProxyClass.asStr : ProxyClass → String
  | .direct => "direct"
  | .datacenter => "datacenter"
  | .residential => "residential"
  | .mobile => "mobile"

/-- `ProxyClass::requires_upstream`. -/
def ProxyClass.requiresUpstream (proxyClass : ProxyClass) : Bool := proxyClass != .direct

/-- Sticky session and country of the dial-time user name. -/
structure UsernameTemplateOptions where
  country : Option String
  session : Option String
  template : Option String

/-- Operator-facing dial plan. -/
structure ProxyPlan where
  explicitUrl : Option String
  username : UsernameTemplateOptions
  requiredClass : Option ProxyClass
  configuredClass : Option ProxyClass

/-- `ProxyConfig::parse` and `apply_username_template`. -/
structure ProxyLib where
  parse : String → Except Error ProxyConfig
  applyUsernameTemplate : UsernameTemplateOptions → ProxyConfig → Except Error ProxyConfig

/-- The environment variables that may name a proxy, first one first. -/
def proxyVariables (scheme : String) : List String :=
  match scheme with
  | "https" =>
      ["BASECRAWL_HTTPS_PROXY", "HTTPS_PROXY", "https_proxy", "BASECRAWL_HTTP_PROXY", "HTTP_PROXY",
        "http_proxy", "ALL_PROXY", "all_proxy"]
  | "http" => ["BASECRAWL_HTTP_PROXY", "HTTP_PROXY", "http_proxy", "ALL_PROXY", "all_proxy"]
  | _ => ["ALL_PROXY", "all_proxy"]

/-- A setting that is there and not blank. -/
def nonBlank (setting : Option String) : Option String := (setting.map trim).filter (· != "")

/-- `resolve_proxy`: the explicit URL wins, then the first variable that is set. -/
def resolveProxy (lib : ProxyLib) (env : Env) (explicit : Option String) (target : Url) :
    Except Error (Option ProxyConfig) :=
  match (nonBlank explicit).or ((proxyVariables target.scheme).findSome? fun v => nonBlank (env v)) with
  | some raw => (lib.parse raw).map some
  | none => .ok none

/-- The class a resolved upstream is given. -/
def ProxyPlan.upstreamClass (plan : ProxyPlan) : ProxyClass :=
  match plan.requiredClass.filter ProxyClass.requiresUpstream with
  | some required => required
  | none => plan.configuredClass.getD .datacenter

/-- An upstream with its user name and its class. -/
def dressProxy (lib : ProxyLib) (plan : ProxyPlan) : Option ProxyConfig →
    Except Error (Option ProxyConfig)
  | none => .ok none
  | some config => do
      let config ← lib.applyUsernameTemplate plan.username config
      .ok (some { config with proxyClass := some plan.upstreamClass })

/-- A direct scrape has no upstream, a commercial one has. -/
def checkRequiredClass : Option ProxyClass → Option ProxyConfig → Except Error Unit
  | some .direct, some _ =>
      .error (.invalidProxy "proxy_class=direct forbids a configured upstream proxy")
  | some required, none =>
      require (!required.requiresUpstream)
        (.proxyClassUnavailable required.asStr
          "required proxy class has no upstream dial path configured")
  | _, _ => .ok ()

/-- `resolve_proxy_plan`. -/
def resolveProxyPlan (lib : ProxyLib) (env : Env) (plan : ProxyPlan) (target : Url) :
    Except Error (Option ProxyConfig) := do
  let resolved ← resolveProxy lib env plan.explicitUrl target
  let resolved ← dressProxy lib plan resolved
  checkRequiredClass plan.requiredClass resolved
  .ok resolved

/-- `truthful_proxy_class`. -/
def truthfulProxyClass (dialed : Option ProxyConfig) (required : Option ProxyClass) :
    Except Error ProxyClass :=
  match dialed, required.filter ProxyClass.requiresUpstream with
  | none, some required =>
      .error (.proxyClassUnavailable required.asStr "required proxy class was not dialed")
  | none, none => .ok .direct
  | some config, some required => .ok (config.proxyClass.getD required)
  | some config, none => .ok (config.proxyClass.getD .datacenter)

/-- `resolve_proxy_plan` gives an upstream the class of its plan. -/
theorem resolveProxyPlan_eq_some {lib : ProxyLib} {env : Env} {plan : ProxyPlan} {target : Url}
    {config : ProxyConfig} (h : resolveProxyPlan lib env plan target = .ok (some config)) :
    config.proxyClass = some plan.upstreamClass := by
  unfold resolveProxyPlan at h
  obtain ⟨resolved, -, h⟩ := bind_eq_ok.mp h
  obtain ⟨dressed, hdress, h⟩ := bind_eq_ok.mp h
  obtain ⟨_, -, h⟩ := bind_eq_ok.mp h
  obtain rfl := Except.ok.inj h
  cases resolved with
  | none => cases hdress
  | some raw =>
    obtain ⟨named, -, hdress⟩ := bind_eq_ok.mp hdress
    obtain rfl := Option.some.inj (Except.ok.inj hdress)
    rfl

/-- **Honesty of the class**: a scrape that declares no class dials directly or as a datacenter. -/
theorem truthful_undeclared {lib : ProxyLib} {env : Env} {plan : ProxyPlan} {target : Url}
    {dialed : Option ProxyConfig} {proxyClass : ProxyClass} (hrequired : plan.requiredClass = none)
    (hconfigured : plan.configuredClass = none)
    (hplan : resolveProxyPlan lib env plan target = .ok dialed)
    (h : truthfulProxyClass dialed none = .ok proxyClass) :
    proxyClass = .direct ∨ proxyClass = .datacenter := by
  cases dialed with
  | none => exact Or.inl (Except.ok.inj h).symm
  | some config =>
    have hclass := resolveProxyPlan_eq_some hplan
    rw [ProxyPlan.upstreamClass, hrequired, hconfigured] at hclass
    right
    rw [← Except.ok.inj h, hclass]
    rfl

end Basecrawl.Core
