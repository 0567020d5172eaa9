import Gcit.Config.CredentialId
import Gcit.Supervisor.Change
import Mathlib.Data.List.DropRight

/-! # The credential pool

Flows that name one credential share one pool entry: client, pacing bucket,
rate-limit state and rate-limit poller are made together when the first of them is
spawned. A secret is looked up in three places and then remembered. A reload drops
what no kept flow names and cancels the pollers of the entries it drops.
-/

namespace Gcit.Supervisor

open Std Gcit Gcit.Library Gcit.Library.OrderedMap

def joinPath (dir name : String) : String :=
  if dir.isEmpty ∨ dir.endsWith "/" then dir ++ name else dir ++ "/" ++ name

inductive InvariantError where
  | symlink
  | nonRegularFile
  | permissiveMode (mode : UInt32)
  | unexpectedOwner (ownerUid euid : UInt32)

def InvariantError.render (id : CredentialId) (path : String) : InvariantError → String
  | .symlink => s!"credential `{id}` at {path} is a symlink; credential files must be regular " ++
      "files (place the credential file directly at this path)"
  | .nonRegularFile => s!"credential `{id}` at {path} is not a regular file (remove any existing " ++
      "inode at this path and place a regular file)"
  | .permissiveMode mode => s!"credential `{id}` at {path} has mode 0" ++
      String.ofList (Nat.toDigits 8 mode.toNat) ++
      s!"; must be 0600 (no group/other access); sudo chmod 0600 {path}"
  | .unexpectedOwner ownerUid euid => s!"credential `{id}` at {path} is owned by uid {ownerUid} " ++
      s!"but the resolving process runs as uid {euid}; only the resolver's uid or root (uid 0) is " ++
      s!"accepted; sudo chown {euid} {path} (or sudo chown root {path})"

inductive Probe where
  | ok
  | notPresent
  | invariant (err : InvariantError)
  | statError (err : String)

def renderStatError (err : String) (id : CredentialId) (path : String) : String :=
  s!"credential `{id}` at {path} could not be checked: {err} (check parent directory permissions " ++
    "for the daemon's effective uid)"

/-- What lies at a credential path, and what reading it gives. -/
structure CredentialFile where
  probe : Probe
  read : Except String String

/-- What the process finds around it when it sets up a flow. A variable that is not
Unicode counts as unset, a `CREDENTIALS_DIRECTORY` that is no directory too. -/
structure Environment where
  credentialsDirectory : Option String
  var : String → Option String
  file : String → CredentialFile
  githubClient : CredentialId → String → Except String Unit
  parseWebhookUrl : String → Except String Unit
  discordClient : Except String Unit

/-- Everything in an entry is made at once, so that one serial number stands for the
identity of its client, its bucket, its rate-limit state and its poller's token. -/
structure GithubCredentialResources where
  serial : Nat
  credential : CredentialId
  token : String
  deriving DecidableEq

structure CredentialPool where
  byId : ExtTreeMap CredentialId GithubCredentialResources
  secrets : ExtTreeMap CredentialId String
  configDir : Option String
  nextSerial : Nat
  /-- The serial numbers of the entries whose poller token was cancelled. -/
  cancelledPollers : List Nat

namespace CredentialPool

def empty (configDir : Option String) : CredentialPool := ⟨∅, ∅, configDir, 0, []⟩

def trimLineEnd (raw : String) : String :=
  String.ofList (raw.toList.rdropWhile fun c => c = '\r' ∨ c = '\n')

/-- One file step of the chain; `none` is to go on with the next step. -/
def fileStep (env : Environment) (id : CredentialId) (path : String) :
    Option (Except String String) :=
  match (env.file path).probe with
  | .ok => some ((env.file path).read.map trimLineEnd)
  | .notPresent => none
  | .invariant err => some (.error (err.render id path))
  | .statError err => some (.error (renderStatError err id path))

def notFound (configDir : Option String) (id : CredentialId) : String :=
  let path := match configDir with
    | some dir => s!"{dir}/credentials/{id}"
    | none => s!"<config_dir>/credentials/{id}"
  s!"credential `{id}` not found at $CREDENTIALS_DIRECTORY/{id} or env ${toEnvVar id} or {path}"

def lookupSecret (configDir : Option String) (env : Environment) (id : CredentialId) :
    Except String String :=
  ((env.credentialsDirectory.bind fun dir => fileStep env id (joinPath dir id)).or <|
    ((env.var (toEnvVar id)).map .ok).or <|
    configDir.bind fun dir => fileStep env id (joinPath (joinPath dir "credentials") id)).getD
  (.error (notFound configDir id))

def resolveSecret (pool : CredentialPool) (env : Environment) (id : CredentialId) :
    Except String String × CredentialPool :=
  match pool.secrets[id]? with
  | some secret => (.ok secret, pool)
  | none => match lookupSecret pool.configDir env id with
    | .ok secret => (.ok secret, { pool with secrets := pool.secrets.insert id secret })
    | .error err => (.error err, pool)

def acquireGithub (pool : CredentialPool) (env : Environment) (id : CredentialId) :
    Except String GithubCredentialResources × CredentialPool :=
  match pool.byId[id]? with
  | some resources => (.ok resources, pool)
  | none => match pool.resolveSecret env id with
    | (.error err, pool) => (.error err, pool)
    | (.ok token, pool) => match env.githubClient id token with
      | .error err => (.error ("github client: " ++ err), pool)
      | .ok () =>
        let resources := ⟨pool.nextSerial, id, token⟩
        (.ok resources,
          { pool with
            byId := pool.byId.insert id resources
            nextSerial := pool.nextSerial + 1 })

def invalidateExcept (pool : CredentialPool) (keep : ExtTreeSet CredentialId) : CredentialPool :=
  let dropped := pool.byId.filter fun id _ => !keep.contains id
  { pool with
    byId := pool.byId.filter fun id _ => keep.contains id
    secrets := pool.secrets.filter fun id _ => keep.contains id
    cancelledPollers := dropped.toList.map (fun entry => entry.2.serial) ++ pool.cancelledPollers }

end CredentialPool

def validateUser (user : String) : Except String Unit :=
  let only := "; use only A-Z, a-z, 0-9, '_', and '-'"
  if user.toList.contains '\x00' then .error ("local_mail.user contains a NUL byte" ++ only)
  else if user.toList.tails.any (['.', '.'].isPrefixOf ·) then
    .error ("local_mail.user contains '..' (path traversal)" ++ only)
  else if user.toList.contains '/' then .error ("local_mail.user contains '/' (path traversal)" ++ only)
  else .ok ()

def buildNotifier (pool : CredentialPool) (env : Environment) :
    Destination → Except String Unit × CredentialPool
  | .discordWebhook credentialId .. =>
    let (secret, pool) := pool.resolveSecret env credentialId
    let notifier := do
      let url ← secret.mapError ("discord credential: " ++ ·)
      (env.parseWebhookUrl url).mapError ("discord webhook URL: " ++ ·)
      env.discordClient.mapError ("discord client: " ++ ·)
    (notifier, pool)
  | .localMail user .. => ((validateUser user).mapError ("local_mail user: " ++ ·), pool)

def buildNotifiers (pool : CredentialPool) (env : Environment) :
    List Destination → Except String Unit × CredentialPool
  | [] => (.ok (), pool)
  | destination :: rest => match buildNotifier pool env destination with
    | (.error err, pool) => (.error err, pool)
    | (.ok (), pool) => buildNotifiers pool env rest

/-- A mail destination has no credential. -/
def destinationCredential : Destination → Option CredentialId
  | .discordWebhook credentialId .. => some credentialId
  | .localMail .. => none

def flowCredentials (flow : FlowConfig) : List CredentialId :=
  flow.action.credentialId :: flow.destination.filterMap destinationCredential

def collectKeptCredentials (newConfig : Config) (toKeep : ExtTreeSet String) :
    ExtTreeSet CredentialId :=
  (∅ : ExtTreeSet CredentialId).insertMany
    ((newConfig.flow.filter fun flow => toKeep.contains flow.name).flatMap flowCredentials)

namespace CredentialPool

variable {pool pool' : CredentialPool} {env : Environment} {id : CredentialId}

/-- Entries and pollers are the same; the secrets may differ. -/
structure SameEntries (pool pool' : CredentialPool) : Prop where
  byId : pool'.byId = pool.byId
  nextSerial : pool'.nextSerial = pool.nextSerial
  cancelledPollers : pool'.cancelledPollers = pool.cancelledPollers

theorem SameEntries.refl (pool : CredentialPool) : SameEntries pool pool := ⟨rfl, rfl, rfl⟩

theorem SameEntries.trans {pool'' : CredentialPool} (h : SameEntries pool pool')
    (h' : SameEntries pool' pool'') : SameEntries pool pool'' :=
  ⟨h'.byId.trans h.byId, h'.nextSerial.trans h.nextSerial,
    h'.cancelledPollers.trans h.cancelledPollers⟩

theorem resolveSecret_sameEntries (pool : CredentialPool) (env : Environment) (id : CredentialId) :
    SameEntries pool (pool.resolveSecret env id).2 := by
  unfold resolveSecret
  split
  · exact .refl _
  · split
    · exact ⟨rfl, rfl, rfl⟩
    · exact .refl _

end CredentialPool

theorem buildNotifier_sameEntries (pool : CredentialPool) (env : Environment)
    (destination : Destination) : pool.SameEntries (buildNotifier pool env destination).2 := by
  cases destination with
  | discordWebhook credentialId fireOn template => exact CredentialPool.resolveSecret_sameEntries _ _ _
  | localMail user fireOn template => exact .refl _

theorem buildNotifiers_sameEntries (pool : CredentialPool) (env : Environment)
    (destinations : List Destination) :
    pool.SameEntries (buildNotifiers pool env destinations).2 := by
  induction destinations generalizing pool with
  | nil => exact .refl _
  | cons destination rest ih =>
    have hfirst := buildNotifier_sameEntries pool env destination
    unfold buildNotifiers
    split
    · next h => exact h ▸ hfirst
    · next h => exact (h ▸ hfirst).trans (ih _)

namespace CredentialPool

variable {pool pool' : CredentialPool} {env : Environment} {id : CredentialId}
  {resources : GithubCredentialResources}

/-- Every serial number handed out is that of an entry of the pool or of a cancelled
poller, never both, and no two ids share one. -/
structure Sound (pool : CredentialPool) : Prop where
  credential : ∀ (id : CredentialId) r, pool.byId[id]? = some r → r.credential = id
  running : ∀ (id : CredentialId) r, pool.byId[id]? = some r →
    r.serial < pool.nextSerial ∧ r.serial ∉ pool.cancelledPollers
  distinct : ∀ (id id' : CredentialId) r r', pool.byId[id]? = some r → pool.byId[id']? = some r' →
    r.serial = r'.serial → id = id'
  cancelled : ∀ serial ∈ pool.cancelledPollers, serial < pool.nextSerial

/-- What was in the pool is still there or its poller is cancelled, and no poller runs
again. -/
structure Follows (pool pool' : CredentialPool) : Prop where
  entries : ∀ (id : CredentialId) r, pool.byId[id]? = some r →
    pool'.byId[id]? = some r ∨ r.serial ∈ pool'.cancelledPollers
  cancelled : pool.cancelledPollers ⊆ pool'.cancelledPollers

theorem sound_empty (configDir : Option String) : (empty configDir).Sound := by
  refine ⟨?_, ?_, ?_, ?_⟩ <;> simp [empty]

theorem Sound.same (h : pool.Sound) (hsame : pool.SameEntries pool') : pool'.Sound := by
  obtain ⟨hbyId, hnext, hcancelled⟩ := hsame
  refine ⟨?_, ?_, ?_, ?_⟩
  · rw [hbyId]; exact h.credential
  · rw [hbyId, hnext, hcancelled]; exact h.running
  · rw [hbyId]; exact h.distinct
  · rw [hnext, hcancelled]; exact h.cancelled

theorem Follows.refl (pool : CredentialPool) : pool.Follows pool :=
  ⟨fun _ _ h => .inl h, List.Subset.refl _⟩

theorem Follows.trans {pool'' : CredentialPool} (h : pool.Follows pool')
    (h' : pool'.Follows pool'') : pool.Follows pool'' where
  entries id r hr := by
    rcases h.entries id r hr with hr | hr
    · exact h'.entries id r hr
    · exact .inr (h'.cancelled hr)
  cancelled := List.Subset.trans h.cancelled h'.cancelled

theorem SameEntries.follows (h : pool.SameEntries pool') : pool.Follows pool' :=
  ⟨fun _ _ hr => .inl (h.byId ▸ hr), h.cancelledPollers ▸ List.Subset.refl _⟩

theorem acquireGithub_cases (pool : CredentialPool) (env : Environment) (id : CredentialId) :
    pool.SameEntries (pool.acquireGithub env id).2 ∧
      (∀ r, (pool.acquireGithub env id).1 = .ok r → pool.byId[id]? = some r) ∨
    ∃ m token, pool.SameEntries m ∧ pool.byId[id]? = none ∧
      pool.acquireGithub env id = (.ok ⟨m.nextSerial, id, token⟩,
        { m with
          byId := m.byId.insert id ⟨m.nextSerial, id, token⟩
          nextSerial := m.nextSerial + 1 }) := by
  have hsame := resolveSecret_sameEntries pool env id
  unfold acquireGithub
  split
  · next r hr =>
    refine .inl ⟨.refl _, ?_⟩
    rintro r' ⟨⟩
    exact hr
  · next hnone =>
    split
    · next m hres =>
      rw [hres] at hsame
      exact .inl ⟨hsame, nofun⟩
    · next token m hres =>
      rw [hres] at hsame
      split
      · exact .inl ⟨hsame, nofun⟩
      · exact .inr ⟨m, token, hsame, hnone, rfl⟩

theorem acquireGithub_ok {r : GithubCredentialResources}
    (h : (pool.acquireGithub env id).1 = .ok r) :
    (pool.acquireGithub env id).2.byId[id]? = some r := by
  rcases acquireGithub_cases pool env id with
    ⟨hsame, hfound⟩ | ⟨m, token, -, -, heq⟩
  · rw [hsame.byId]
    exact hfound r h
  · rw [heq] at h ⊢
    cases h
    simp

theorem lookup_acquireGithub {r : GithubCredentialResources} {other : CredentialId}
    (h : pool.byId[other]? = some r) : (pool.acquireGithub env id).2.byId[other]? = some r := by
  rcases acquireGithub_cases pool env id with
    ⟨hsame, -⟩ | ⟨m, token, hsame, hnone, heq⟩
  · rwa [hsame.byId]
  · have hne : id ≠ other := by
      rintro rfl
      rw [hnone] at h
      cases h
    rw [heq, lookup_insert, if_neg hne, hsame.byId, h]

theorem Follows.acquireGithub : pool.Follows (pool.acquireGithub env id).2 where
  entries _ _ hr := .inl (lookup_acquireGithub hr)
  cancelled := by
    rcases acquireGithub_cases pool env id with
      ⟨hsame, -⟩ | ⟨m, token, hsame, -, heq⟩
    · rw [hsame.cancelledPollers]
      exact List.Subset.refl _
    · rw [heq, hsame.cancelledPollers]
      exact List.Subset.refl _

theorem Sound.acquireGithub (h : pool.Sound) : (pool.acquireGithub env id).2.Sound := by
  rcases acquireGithub_cases pool env id with
    ⟨hsame, -⟩ | ⟨m, token, hsame, -, heq⟩
  · exact h.same hsame
  · have hm := h.same hsame
    rw [heq]
    have hlookup : ∀ (a : CredentialId) r,
        (m.byId.insert id ⟨m.nextSerial, id, token⟩)[a]? = some r →
        a = id ∧ r = ⟨m.nextSerial, id, token⟩ ∨ m.byId[a]? = some r := by
      intro a r hr
      rw [lookup_insert] at hr
      split at hr
      · next ha => exact .inl ⟨ha.symm, (Option.some.inj hr).symm⟩
      · exact .inr hr
    refine ⟨?_, ?_, ?_, ?_⟩
    · intro a r hr
      rcases hlookup a r hr with ⟨rfl, rfl⟩ | hr
      · rfl
      · exact hm.credential a r hr
    · intro a r hr
      rcases hlookup a r hr with ⟨rfl, rfl⟩ | hr
      · exact ⟨Nat.lt_succ_self _, fun hc => Nat.lt_irrefl _ (hm.cancelled _ hc)⟩
      · obtain ⟨hlt, hrunning⟩ := hm.running a r hr
        exact ⟨Nat.lt_succ_of_lt hlt, hrunning⟩
    · intro a b r s hr hs hserial
      rcases hlookup a r hr with ⟨ha, rfl⟩ | hold
      · rcases hlookup b s hs with ⟨hb, rfl⟩ | hold'
        · rw [ha, hb]
        · exact absurd hserial.symm (Nat.ne_of_lt (hm.running b s hold').1)
      · rcases hlookup b s hs with ⟨hb, rfl⟩ | hold'
        · exact absurd hserial (Nat.ne_of_lt (hm.running a r hold).1)
        · exact hm.distinct a b r s hold hold' hserial
    · exact fun serial hc => Nat.lt_succ_of_lt (hm.cancelled serial hc)

variable {keep : ExtTreeSet CredentialId}

theorem lookup_invalidateExcept {r : GithubCredentialResources} :
    (pool.invalidateExcept keep).byId[id]? = some r ↔ pool.byId[id]? = some r ∧ id ∈ keep := by
  simp only [invalidateExcept, ExtTreeMap.getElem?_filter']
  rw [Option.filter_eq_some_iff]
  simp

theorem mem_invalidateExcept_cancelled {serial : Nat} :
    serial ∈ (pool.invalidateExcept keep).cancelledPollers ↔ serial ∈ pool.cancelledPollers ∨
      ∃ (id : CredentialId) (r : GithubCredentialResources),
        pool.byId[id]? = some r ∧ id ∉ keep ∧ r.serial = serial := by
  simp only [invalidateExcept, List.mem_append, List.mem_map, Prod.exists,
    ExtTreeMap.mem_toList_iff_getElem?_eq_some, ExtTreeMap.getElem?_filter']
  have hdropped : ∀ a, (!keep.contains a) = true ↔ a ∉ keep := by
    intro a
    rw [Bool.not_eq_true', ← Bool.not_eq_true, ExtTreeSet.contains_iff_mem]
  simp only [Option.filter_eq_some_iff, hdropped, and_assoc]
  exact or_comm

theorem Follows.invalidateExcept : pool.Follows (pool.invalidateExcept keep) where
  entries a r hr := by
    by_cases hkeep : a ∈ keep
    · exact .inl (lookup_invalidateExcept.mpr ⟨hr, hkeep⟩)
    · exact .inr (mem_invalidateExcept_cancelled.mpr (.inr ⟨a, r, hr, hkeep, rfl⟩))
  cancelled _ hc := mem_invalidateExcept_cancelled.mpr (.inl hc)

theorem Sound.invalidateExcept (h : pool.Sound) : (pool.invalidateExcept keep).Sound := by
  refine ⟨?_, ?_, ?_, ?_⟩
  · exact fun a r hr => h.credential a r (lookup_invalidateExcept.mp hr).1
  · intro a r hr
    obtain ⟨hr, hkeep⟩ := lookup_invalidateExcept.mp hr
    obtain ⟨hlt, hrunning⟩ := h.running a r hr
    refine ⟨hlt, fun hc => ?_⟩
    rcases mem_invalidateExcept_cancelled.mp hc with hc | ⟨b, s, hs, hdropped, hserial⟩
    · exact hrunning hc
    · exact hdropped (h.distinct b a s r hs hr hserial ▸ hkeep)
  · intro a b r s hr hs
    exact h.distinct a b r s (lookup_invalidateExcept.mp hr).1 (lookup_invalidateExcept.mp hs).1
  · intro serial hc
    rcases mem_invalidateExcept_cancelled.mp hc with hc | ⟨a, r, hr, -, rfl⟩
    · exact h.cancelled serial hc
    · exact (h.running a r hr).1

end CredentialPool

theorem mem_collectKeptCredentials {newConfig : Config} {toKeep : ExtTreeSet String}
    {flow : FlowConfig} (hflow : flow ∈ newConfig.flow) (hkeep : flow.name ∈ toKeep) :
    flow.action.credentialId ∈ collectKeptCredentials newConfig toKeep := by
  refine ExtTreeSet.mem_insertMany_list.mpr (.inr ?_)
  simp only [List.contains_iff_mem, List.mem_flatMap, List.mem_filter]
  exact ⟨flow, ⟨hflow, by simpa using hkeep⟩, List.mem_cons_self⟩

end Gcit.Supervisor
