import Gcit.Library.Unsigned
import Gcit.Supervisor.Credentials

/-! # The URL of a webhook

The URL is a secret, and where it is refused the reason goes to the log and into the last
error of the flow. What the reason may show of it is everything but the token.
-/

namespace Gcit.Discord

open Gcit Gcit.Library Gcit.Supervisor

/-- What the accessors of the URL crate give. -/
structure Url where
  scheme : String
  username : String
  password : Option String
  host : Option String
  pathSegments : Option (List String)

structure ParsedWebhookUrl where
  id : Nat
  token : String
  idBound : id < 2 ^ 64
  idNonzero : id ≠ 0
  tokenNonempty : token ≠ ""
  deriving DecidableEq

inductive ParseWebhookUrlError where
  | malformed (source : String)
  | schemeNotHttps (scheme : String)
  | userinfoNotAllowed
  | hostNotAllowed (host : String)
  | pathMalformed
  | invalidId (id : String) (source : Unsigned.IntErrorKind)
  | idZero
  | emptyToken
  deriving DecidableEq

def ParseWebhookUrlError.display : ParseWebhookUrlError → String
  | .malformed source => s!"malformed webhook URL: {source}"
  | .schemeNotHttps scheme => s!"webhook scheme '{scheme}' is not allowed; expected https"
  | .userinfoNotAllowed => "webhook URL must not contain userinfo (user[:pass]@host)"
  | .hostNotAllowed host => s!"webhook host '{host}' is not allowed; expected discord.com, " ++
      "discordapp.com, ptb.discord.com, or canary.discord.com"
  | .pathMalformed => "webhook URL path malformed; expected /api/webhooks/<id>/<token>"
  | .invalidId id source => s!"webhook id '{id}' is not a valid number: " ++ source.display
  | .idZero => "webhook id is zero; expected a non-zero Discord snowflake"
  | .emptyToken => "webhook token is empty"

def isDiscordHost (host : String) : Bool :=
  host.toLower ∈ ["discord.com", "discordapp.com", "ptb.discord.com", "canary.discord.com"]

/-- The part of `parse_webhook_url` after the checks of the path's shape. -/
def parseIdAndToken (id token : String) : Except ParseWebhookUrlError ParsedWebhookUrl :=
  match h : Unsigned.fromStr (2 ^ 64) id.toList with
  | .error source => .error (.invalidId id source)
  | .ok n =>
    if htoken : token = "" then .error .emptyToken
    else if hzero : n = 0 then .error .idZero
    else .ok ⟨n, token, ((Unsigned.fromStr_eq_ok (Nat.two_pow_pos 64)).mp h).2, hzero, htoken⟩

def parseSegments : List String → Except ParseWebhookUrlError ParsedWebhookUrl
  | [api, webhooks, id, token] =>
    if api = "api" ∧ webhooks = "webhooks" then parseIdAndToken id token else .error .pathMalformed
  | _ => .error .pathMalformed

def parseUrl (url : Url) : Except ParseWebhookUrlError ParsedWebhookUrl :=
  if url.scheme ≠ "https" then .error (.schemeNotHttps url.scheme)
  else if url.username ≠ "" ∨ url.password.isSome then .error .userinfoNotAllowed
  else match url.host with
    | none => .error (.hostNotAllowed "")
    | some host =>
      if isDiscordHost host = false then .error (.hostNotAllowed host)
      else match url.pathSegments with
        | none => .error .pathMalformed
        | some segments => parseSegments (segments.filter (· ≠ ""))

/-- `parse` is the URL crate, with the text of its error. -/
def parseWebhookUrl (parse : String → Except String Url) (input : String) :
    Except ParseWebhookUrlError ParsedWebhookUrl :=
  match parse input with
  | .error source => .error (.malformed source)
  | .ok url => parseUrl url

/-! ## The URLs that are accepted -/

/-- Empty segments are not counted, and the id may be any numeral. -/
structure Names (url : Url) (p : ParsedWebhookUrl) : Prop where
  scheme : url.scheme = "https"
  username : url.username = ""
  password : url.password = none
  host : ∃ host, url.host = some host ∧ isDiscordHost host
  path : ∃ segments id, url.pathSegments = some segments ∧
    segments.filter (· ≠ "") = ["api", "webhooks", id, p.token] ∧ Unsigned.Numeral id.toList p.id

variable {url : Url} {p : ParsedWebhookUrl}

theorem parseIdAndToken_eq_ok {id token : String} :
    parseIdAndToken id token = .ok p ↔ Unsigned.Numeral id.toList p.id ∧ token = p.token := by
  unfold parseIdAndToken
  split
  case h_1 source hid =>
    refine iff_of_false (fun h => nomatch h) fun ⟨hnumeral, _⟩ => ?_
    have hok := (Unsigned.fromStr_eq_ok (Nat.two_pow_pos 64)).mpr ⟨hnumeral, p.idBound⟩
    exact nomatch hid.symm.trans hok
  case h_2 n hid =>
    have hread : Unsigned.Numeral id.toList p.id ↔ n = p.id := by
      constructor
      · intro hnumeral
        exact Except.ok.inj
          (hid.symm.trans ((Unsigned.fromStr_eq_ok (Nat.two_pow_pos 64)).mpr ⟨hnumeral, p.idBound⟩))
      · rintro rfl
        exact ((Unsigned.fromStr_eq_ok (Nat.two_pow_pos 64)).mp hid).1
    rw [hread]
    split
    case isTrue htoken =>
      exact iff_of_false (fun h => nomatch h) fun h => p.tokenNonempty (h.2 ▸ htoken)
    case isFalse =>
      split
      case isTrue hzero => exact iff_of_false (fun h => nomatch h) fun h => p.idNonzero (h.1 ▸ hzero)
      case isFalse =>
        rw [Except.ok.injEq]
        obtain ⟨id', token', _, _, _⟩ := p
        rw [ParsedWebhookUrl.mk.injEq]

theorem parseSegments_eq_ok {segments : List String} :
    parseSegments segments = .ok p ↔
      ∃ id, segments = ["api", "webhooks", id, p.token] ∧ Unsigned.Numeral id.toList p.id := by
  constructor
  · intro h
    unfold parseSegments at h
    split at h
    case h_1 api webhooks id token =>
      split at h
      case isTrue hfixed =>
        obtain ⟨rfl, rfl⟩ := hfixed
        obtain ⟨hnumeral, rfl⟩ := parseIdAndToken_eq_ok.1 h
        exact ⟨id, rfl, hnumeral⟩
      case isFalse => cases h
    case h_2 => cases h
  · rintro ⟨id, rfl, hnumeral⟩
    rw [parseSegments, if_pos ⟨rfl, rfl⟩]
    exact parseIdAndToken_eq_ok.2 ⟨hnumeral, rfl⟩

theorem parseUrl_eq_ok : parseUrl url = .ok p ↔ Names url p := by
  constructor
  · intro h
    unfold parseUrl at h
    split at h
    case isTrue => cases h
    case isFalse hscheme =>
    split at h
    case isTrue => cases h
    case isFalse huserinfo =>
    split at h
    case h_1 => cases h
    case h_2 host hhost =>
    split at h
    case isTrue => cases h
    case isFalse hdiscord =>
    split at h
    case h_1 => cases h
    case h_2 segments hsegments =>
    obtain ⟨husername, hpassword⟩ := not_or.mp huserinfo
    obtain ⟨id, hfilter, hnumeral⟩ := parseSegments_eq_ok.1 h
    exact ⟨not_not.mp hscheme, not_not.mp husername, Option.not_isSome_iff_eq_none.mp hpassword,
      ⟨host, hhost, (Bool.not_eq_false _).mp hdiscord⟩, segments, id, hsegments, hfilter, hnumeral⟩
  · rintro ⟨hscheme, husername, hpassword, ⟨host, hhost, hdiscord⟩, segments, id, hsegments,
      hfilter, hnumeral⟩
    simp only [parseUrl, hscheme, husername, hpassword, hhost, hdiscord, hsegments]
    exact parseSegments_eq_ok.2 ⟨id, hfilter, hnumeral⟩

/-- The four segments as Discord writes them, under any of its hosts. -/
theorem parseUrl_canonical (p : ParsedWebhookUrl) {host : String} (hhost : isDiscordHost host) :
    parseUrl ⟨"https", "", none, some host,
      some ["api", "webhooks", Nat.repr p.id, p.token]⟩ = .ok p := by
  have hdigits : Unsigned.Numeral (Nat.repr p.id).toList p.id := by
    rw [Nat.toList_repr]
    exact Unsigned.numeral_toDigits p.id
  have hid : Nat.repr p.id ≠ "" := by
    intro hempty
    rw [hempty] at hdigits
    obtain ⟨digits, hcs, hne, -⟩ := hdigits
    obtain hcs | hcs := hcs
    · exact hne hcs.symm
    · cases hcs
  refine parseUrl_eq_ok.2 ⟨rfl, rfl, rfl, ⟨host, rfl, hhost⟩, _, _, rfl, ?_, hdigits⟩
  simp [hid, p.tokenNonempty]

/-! ## What a refusal shows -/

/-- The URLs differ at most in a token, where one is, and in what the user information is. -/
structure AgreeButToken (u v : Url) : Prop where
  scheme : u.scheme = v.scheme
  username : u.username = "" ↔ v.username = ""
  password : u.password.isSome = v.password.isSome
  host : u.host = v.host
  path : u.pathSegments = v.pathSegments ∨ ∃ segments segments' api webhooks id token token',
    u.pathSegments = some segments ∧ v.pathSegments = some segments' ∧
      segments.filter (· ≠ "") = [api, webhooks, id, token] ∧
      segments'.filter (· ≠ "") = [api, webhooks, id, token']

theorem parseIdAndToken_error {id token token' : String} {e : ParseWebhookUrlError}
    (htoken' : token' ≠ "") (htoken : token ≠ "") (h : parseIdAndToken id token = .error e) :
    parseIdAndToken id token' = .error e := by
  unfold parseIdAndToken at h ⊢
  split at h
  case h_1 source hid => exact h
  case h_2 n hid =>
    rw [dif_neg htoken] at h
    split at h
    case isTrue hzero =>
      rw [dif_neg htoken', dif_pos hzero]
      exact h
    case isFalse => cases h

theorem parseSegments_error {api webhooks id token token' : String} {e : ParseWebhookUrlError}
    (htoken : token ≠ "") (htoken' : token' ≠ "")
    (h : parseSegments [api, webhooks, id, token] = .error e) :
    parseSegments [api, webhooks, id, token'] = .error e := by
  unfold parseSegments at h ⊢
  dsimp only at h ⊢
  split at h
  case isTrue hfixed =>
    rw [if_pos hfixed]
    exact parseIdAndToken_error htoken' htoken h
  case isFalse hfixed =>
    rw [if_neg hfixed]
    exact h

theorem ne_empty_of_filter {segments : List String} {api webhooks id token : String}
    (h : segments.filter (· ≠ "") = [api, webhooks, id, token]) : token ≠ "" := by
  have hmem : token ∈ [api, webhooks, id, token] := by simp
  rw [← h] at hmem
  simpa using (List.mem_filter.mp hmem).2

/-- A refusal does not depend on the token. -/
theorem parseUrl_error {u v : Url} {e : ParseWebhookUrlError} (huv : AgreeButToken u v)
    (h : parseUrl u = .error e) : parseUrl v = .error e := by
  unfold parseUrl at h ⊢
  have hsame : v.username ≠ "" ∨ u.password.isSome ↔ u.username ≠ "" ∨ u.password.isSome :=
    or_congr_left (not_congr huv.username.symm)
  rw [← huv.scheme, ← huv.host, ← huv.password]
  split at h
  case isTrue hscheme => rwa [if_pos hscheme]
  case isFalse hscheme =>
  rw [if_neg hscheme]
  split at h
  case isTrue huserinfo => rwa [if_pos (hsame.mpr huserinfo)]
  case isFalse huserinfo =>
  rw [if_neg (hsame.not.mpr huserinfo)]
  split at h
  case h_1 hhost => exact h
  case h_2 host hhost =>
  split at h
  case isTrue hdiscord => rwa [if_pos hdiscord]
  case isFalse hdiscord =>
  rw [if_neg hdiscord]
  obtain hpath | ⟨segments, segments', api, webhooks, id, token, token', hu, hv, hfilter,
    hfilter'⟩ := huv.path
  · rw [← hpath]
    exact h
  · rw [hu] at h
    rw [hv]
    dsimp only at h ⊢
    rw [hfilter] at h
    rw [hfilter']
    exact parseSegments_error (ne_empty_of_filter hfilter) (ne_empty_of_filter hfilter') h

/-- With the id and the token in each other's places the reason shows the token. -/
example : parseUrl ⟨"https", "", none, some "discord.com",
    some ["api", "webhooks", "s3cret", "42"]⟩ = .error (.invalidId "s3cret" .invalidDigit) := by
  decide +kernel

/-! ## Setting up the destination -/

section Setup

variable (parse : String → Except String Url)

def checkWebhookUrl (input : String) : Except String Unit :=
  match parseWebhookUrl parse input with
  | .ok _ => .ok ()
  | .error e => .error e.display

/-- The environment with this parser in it. -/
def withParser (env : Environment) : Environment :=
  { env with parseWebhookUrl := checkWebhookUrl parse }

theorem buildNotifier_of_secret {env : Environment} {pool : CredentialPool} {id : CredentialId}
    {secret : String} (hsecret : (pool.resolveSecret (withParser parse env) id).1 = .ok secret)
    (fireOn : List FireEvent) (template : DiscordTemplateConfig) :
    (buildNotifier pool (withParser parse env) (.discordWebhook id fireOn template)).1 =
      match parseWebhookUrl parse secret with
      | .ok _ => env.discordClient.mapError ("discord client: " ++ ·)
      | .error e => .error ("discord webhook URL: " ++ e.display) := by
  simp only [buildNotifier, hsecret]
  have hparse : (withParser parse env).parseWebhookUrl secret = checkWebhookUrl parse secret := rfl
  change Except.bind (.ok secret) _ = _
  rw [Except.bind, hparse, checkWebhookUrl]
  cases parseWebhookUrl parse secret with
  | ok p => rfl
  | error e => rfl

theorem buildNotifier_of_unresolved {env : Environment} {pool : CredentialPool} {id : CredentialId}
    {e : String} (hsecret : (pool.resolveSecret (withParser parse env) id).1 = .error e)
    (fireOn : List FireEvent) (template : DiscordTemplateConfig) :
    (buildNotifier pool (withParser parse env) (.discordWebhook id fireOn template)).1 =
      .error ("discord credential: " ++ e) := by
  simp only [buildNotifier, hsecret]
  rfl

/-- What setting up the destination says to the pool and the environment. -/
def setup (env : Environment) (pool : CredentialPool) (id : CredentialId) (fireOn : List FireEvent)
    (template : DiscordTemplateConfig) : Except String Unit :=
  (buildNotifier pool (withParser parse env) (.discordWebhook id fireOn template)).1

/-- The credential resolves to a URL that the crate can read. -/
def Resolves (env : Environment) (pool : CredentialPool) (id : CredentialId) (url : Url) : Prop :=
  ∃ secret, (pool.resolveSecret (withParser parse env) id).1 = .ok secret ∧ parse secret = .ok url

variable {parse} {env env' : Environment} {pool pool' : CredentialPool} {id id' : CredentialId}
  {fireOn fireOn' : List FireEvent} {template template' : DiscordTemplateConfig}

theorem setup_of_refused {url : Url} {e : ParseWebhookUrlError}
    (hurl : Resolves parse env pool id url) (h : parseUrl url = .error e) :
    setup parse env pool id fireOn template = .error ("discord webhook URL: " ++ e.display) := by
  obtain ⟨secret, hsecret, hparse⟩ := hurl
  rw [setup, buildNotifier_of_secret parse hsecret, parseWebhookUrl, hparse]
  dsimp only
  rw [h]

theorem setup_ok_iff :
    setup parse env pool id fireOn template = .ok () ↔
      (∃ url p, Resolves parse env pool id url ∧ Names url p) ∧ env.discordClient = .ok () := by
  cases hsecret : (pool.resolveSecret (withParser parse env) id).1 with
  | error e =>
    rw [setup, buildNotifier_of_unresolved parse hsecret]
    refine iff_of_false (fun h => nomatch h) fun ⟨⟨url, p, ⟨secret, hresolved, _⟩, _⟩, _⟩ => ?_
    exact nomatch hsecret.symm.trans hresolved
  | ok secret =>
    have hnames : (∃ url p, Resolves parse env pool id url ∧ Names url p) ↔
        ∃ p, parseWebhookUrl parse secret = .ok p := by
      constructor
      · rintro ⟨url, p, ⟨secret', hresolved, hparse⟩, hp⟩
        obtain rfl := Except.ok.inj (hsecret.symm.trans hresolved)
        exact ⟨p, by rw [parseWebhookUrl, hparse]; exact parseUrl_eq_ok.2 hp⟩
      · rintro ⟨p, hp⟩
        unfold parseWebhookUrl at hp
        split at hp
        case h_1 => cases hp
        case h_2 url hparse => exact ⟨url, p, ⟨secret, hsecret, hparse⟩, parseUrl_eq_ok.1 hp⟩
    rw [setup, buildNotifier_of_secret parse hsecret, hnames]
    cases parseWebhookUrl parse secret with
    | error e => exact iff_of_false (fun h => nomatch h) fun h => nomatch h.1.choose_spec
    | ok p =>
      cases env.discordClient with
      | ok => exact iff_of_true rfl ⟨⟨p, rfl⟩, rfl⟩
      | error e => exact iff_of_false (fun h => nomatch h) fun h => nomatch h.2

/-- A destination is set up exactly if its credential resolves to a URL that names a webhook
and there is a client. The URLs that Discord hands out name theirs, no URL names two, and where
one is refused, whatever else there is in the pool and around the daemon, the reason is the
same for every token. -/
theorem webhook_setup (parse : String → Except String Url) (env : Environment)
    (pool : CredentialPool) (id : CredentialId) (fireOn : List FireEvent)
    (template : DiscordTemplateConfig) :
    (setup parse env pool id fireOn template = .ok () ↔
      (∃ url p, Resolves parse env pool id url ∧ Names url p) ∧ env.discordClient = .ok ()) ∧
    (∀ p host, isDiscordHost host → Names ⟨"https", "", none, some host,
      some ["api", "webhooks", Nat.repr p.id, p.token]⟩ p) ∧
    (∀ url p q, Names url p → Names url q → p = q) ∧
    ∀ url, Resolves parse env pool id url → (∀ p, ¬ Names url p) →
      ∀ env' pool' id' fireOn' template' url', Resolves parse env' pool' id' url' →
        AgreeButToken url url' →
          setup parse env' pool' id' fireOn' template' =
            setup parse env pool id fireOn template := by
  refine ⟨setup_ok_iff, fun p host hhost => parseUrl_eq_ok.1 (parseUrl_canonical p hhost),
    fun url p q hp hq => ?_, fun url hurl hnone env' pool' id' fireOn' template' url' hurl' hagree => ?_⟩
  · exact Except.ok.inj ((parseUrl_eq_ok.2 hp).symm.trans (parseUrl_eq_ok.2 hq))
  · cases hparse : parseUrl url with
    | ok p => exact absurd (parseUrl_eq_ok.1 hparse) (hnone p)
    | error e =>
      rw [setup_of_refused hurl hparse, setup_of_refused hurl' (parseUrl_error hagree hparse)]

end Setup

end Gcit.Discord
