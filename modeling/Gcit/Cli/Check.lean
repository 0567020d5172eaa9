import Gcit.Supervisor.Credentials

/-! # The credentials in the pre-flight

`gcit check` looks for a credential where the daemon will look for it, with flags instead
of early returns and with an accessor of its own for the environment. The two agree on
every step as long as the variable, where it comes to that, is Unicode.
-/

namespace Gcit.Cli.Check

open Std Gcit Gcit.Library Gcit.Library.OrderedMap Gcit.Supervisor

/-- The environment as the operating system has it, over what the daemon sees of it. -/
structure OsEnvironment extends Supervisor.Environment where
  directoryVar : Option String
  isDir : String → Bool
  varOs : String → Option ByteArray
  directory_eq : credentialsDirectory = directoryVar.filter isDir
  var_eq : ∀ name, var name = (varOs name).bind String.fromUTF8?

inductive Step where
  | directory
  | variable
  | configDir
  deriving DecidableEq, Repr

inductive CheckError where
  | spool (message : String)
  | credentialInvariant (path reason : String) (consumers : List String)
  | credentialNotFound (path : String) (lines : List Nat) (id : String) (searched consumers : List String)
  deriving DecidableEq

/-- The two flags of the loop body; `resolved` keeps the step at which it was set. -/
structure Progress where
  resolved : Option Step
  resolutionError : Option CheckError
  deriving DecidableEq

def preFlightStatError (err : String) (id : CredentialId) (path : String) : String :=
  s!"credential `{id}` at {path} could not be checked: {err} (the parent directory must be " ++
    "readable by the resolving process; re-run as the credential owner or via `sudo gcit check` " ++
    "to validate)"

namespace Progress

def start : Progress := ⟨none, none⟩

def undecided (p : Progress) : Bool := p.resolved.isNone && p.resolutionError.isNone

def probe (p : Progress) (env : OsEnvironment) (id : CredentialId) (owners : List String)
    (step : Step) (path : String) : Progress :=
  match (env.file path).probe with
  | .ok => { p with resolved := some step }
  | .notPresent => p
  | .invariant err =>
    { p with resolutionError := some (.credentialInvariant path (err.render id path) owners) }
  | .statError err =>
    { p with
      resolutionError := some (.credentialInvariant path (preFlightStatError err id path) owners) }

end Progress

def resolve (configDir : Option String) (env : OsEnvironment) (id : CredentialId)
    (owners : List String) : Progress :=
  let p := match env.directoryVar.filter env.isDir with
    | some dir => Progress.start.probe env id owners .directory (joinPath dir id)
    | none => Progress.start
  let p := if p.undecided && (env.varOs (toEnvVar id)).isSome then
      { p with resolved := some .variable }
    else p
  if p.undecided then match configDir with
    | some dir => p.probe env id owners .configDir (joinPath (joinPath dir "credentials") id)
    | none => p
  else p

def buildSearchedPaths (id : CredentialId) (credentialsDir configDir : Option String) :
    List String :=
  (credentialsDir.map fun dir => joinPath dir id).toList ++ ["$env::" ++ toEnvVar id] ++
    (configDir.map fun dir => joinPath (joinPath dir "credentials") id).toList

structure Report where
  notFound : List CheckError
  infoNotes : List String
  deriving DecidableEq

def infoNote (id : CredentialId) (owners : List String) : String :=
  s!"credential '{id}' not present in $CREDENTIALS_DIRECTORY at check time; the systemd unit's " ++
    "LoadCredential= line will provide it at daemon start (consumed by: " ++
    ", ".intercalate owners ++ ")"

def checkCredential (configPath : String) (configDir : Option String)
    (credentialLines : ExtTreeMap CredentialId (List Nat)) (env : OsEnvironment) (report : Report)
    (consumer : CredentialId × List String) : Report :=
  let (id, owners) := consumer
  let p := resolve configDir env id owners
  match p.resolutionError with
  | some e => { report with notFound := report.notFound ++ [e] }
  | none =>
    if p.resolved.isSome then report
    else match env.directoryVar.filter env.isDir with
      | some _ => { report with infoNotes := report.infoNotes ++ [infoNote id owners] }
      | none =>
        let searched := buildSearchedPaths id (env.directoryVar.filter env.isDir) configDir
        { report with notFound := report.notFound ++ [.credentialNotFound configPath
            (credentialLines[id]?.getD []) id searched owners] }

def walkCredentials (config : Config) : List (CredentialId × String) :=
  config.flow.flatMap fun flow =>
    (flow.source.credentialId.toList ++ flowCredentials flow).map (·, flow.name)

def collectConsumers (config : Config) : ExtTreeMap CredentialId (List String) :=
  ((walkCredentials config).foldl (fun out r => pushAt out r.1 r.2) ∅).map fun _ owners =>
    owners.eraseDups

def CONFIG : UInt8 := 78

def run (configPath : String) (configDir : Option String) (config : Config)
    (credentialLines : ExtTreeMap CredentialId (List Nat)) (spool : List CheckError)
    (env : OsEnvironment) : Report × UInt8 :=
  let report := (collectConsumers config).toList.foldl
    (checkCredential configPath configDir credentialLines env) ⟨spool, []⟩
  (report, if report.notFound.isEmpty then 0 else CONFIG)

/-- Where the daemon's lookup ended. -/
structure Answer where
  step : Step
  path : Option String
  result : Except String String

def fileAnswer (env : Supervisor.Environment) (id : CredentialId) (step : Step) (path : String) :
    Option Answer :=
  (CredentialPool.fileStep env id path).map (⟨step, some path, ·⟩)

/-- `resolve_secret` without its cache, up to the error for an id that is nowhere. -/
def lookupAnswer (configDir : Option String) (env : Supervisor.Environment) (id : CredentialId) :
    Option Answer :=
  (env.credentialsDirectory.bind fun dir => fileAnswer env id .directory (joinPath dir id)).or <|
    ((env.var (toEnvVar id)).map fun value => ⟨.variable, none, .ok value⟩).or <|
    configDir.bind fun dir =>
      fileAnswer env id .configDir (joinPath (joinPath dir "credentials") id)

theorem lookupSecret_eq (configDir : Option String) (env : Supervisor.Environment)
    (id : CredentialId) :
    CredentialPool.lookupSecret configDir env id =
      ((lookupAnswer configDir env id).map Answer.result).getD
        (.error (CredentialPool.notFound configDir id)) := by
  simp only [CredentialPool.lookupSecret, lookupAnswer, Option.map_or, Option.map_bind, fileAnswer,
    Option.map_map, Function.comp_def, Option.map_id']

/-- What the daemon gives for an id that it has not looked up before. -/
def freshSecret (configDir : Option String) (env : Supervisor.Environment) (id : CredentialId) :
    Except String String :=
  ((CredentialPool.empty configDir).resolveSecret env id).1

theorem freshSecret_eq (configDir : Option String) (env : Supervisor.Environment)
    (id : CredentialId) :
    freshSecret configDir env id = ((lookupAnswer configDir env id).map Answer.result).getD
      (.error (CredentialPool.notFound configDir id)) := by
  have hempty : (CredentialPool.empty configDir).secrets[id]? = none := by
    simp [CredentialPool.empty]
  rw [freshSecret, CredentialPool.resolveSecret, hempty, ← lookupSecret_eq]
  dsimp only [CredentialPool.empty]
  split
  case h_1 secret hlookup => exact hlookup.symm
  case h_2 err hlookup => exact hlookup.symm

def Readable (env : Supervisor.Environment) : Prop :=
  ∀ path, (env.file path).probe matches .ok → ∃ text, (env.file path).read = .ok text

/-- What the flags of `gcit check` say and where the daemon's lookup ended. -/
inductive Sees (owners : List String) : Progress → Option Answer → Prop where
  | nothing : Sees owners .start none
  | resolved (step : Step) (path : Option String) (secret : String) :
      Sees owners ⟨some step, none⟩ (some ⟨step, path, .ok secret⟩)
  | failed (step : Step) (path reason err : String) :
      Sees owners ⟨none, some (.credentialInvariant path reason owners)⟩
        (some ⟨step, some path, .error err⟩)

variable {configDir : Option String} {env : OsEnvironment} {id : CredentialId}
  {owners : List String}

theorem Sees.result {p : Progress} {a : Option Answer} (h : Sees owners p a)
    (hresolved : p.resolved.isSome) : ∃ secret, a.map Answer.result = some (.ok secret) := by
  cases h with
  | nothing | failed => cases hresolved
  | resolved step path secret => exact ⟨secret, rfl⟩

theorem Progress.probe_of_notPresent (p : Progress) {step : Step} {path : String}
    (h : (env.file path).probe matches .notPresent) : p.probe env id owners step path = p := by
  unfold Progress.probe
  cases hprobe : (env.file path).probe with
  | notPresent => rfl
  | ok | invariant | statError => rw [hprobe] at h; cases h

theorem sees_probe (hread : Readable env.toEnvironment) (step : Step) (path : String) :
    Sees owners (Progress.start.probe env id owners step path)
      (fileAnswer env.toEnvironment id step path) := by
  have hread := hread path
  unfold Progress.probe fileAnswer CredentialPool.fileStep
  cases hprobe : (env.file path).probe with
  | ok =>
    obtain ⟨text, htext⟩ := hread (by rw [hprobe])
    rw [htext]
    exact .resolved step (some path) _
  | notPresent => exact .nothing
  | invariant err => exact .failed step path _ _
  | statError err => exact .failed step path _ _

/-- Nothing at the first place, and something in the variable that is not Unicode. -/
def NotUnicode (env : OsEnvironment) (id : CredentialId) : Prop :=
  (∀ dir ∈ env.credentialsDirectory, (env.file (joinPath dir id)).probe matches .notPresent) ∧
    ∃ bytes ∈ env.varOs (toEnvVar id), String.fromUTF8? bytes = none

theorem sees_directory (hread : Readable env.toEnvironment) (id : CredentialId)
    (owners : List String) :
    Sees owners
      (match env.directoryVar.filter env.isDir with
        | some dir => Progress.start.probe env id owners .directory (joinPath dir id)
        | none => Progress.start)
      (env.credentialsDirectory.bind fun dir =>
        fileAnswer env.toEnvironment id .directory (joinPath dir id)) := by
  rw [← env.directory_eq]
  cases env.credentialsDirectory with
  | none => exact .nothing
  | some dir => exact sees_probe hread .directory (joinPath dir id)

theorem fileAnswer_eq_none_iff {step : Step} {path : String} :
    fileAnswer env.toEnvironment id step path = none ↔
      (env.file path).probe matches .notPresent := by
  unfold fileAnswer CredentialPool.fileStep
  cases (env.file path).probe <;> simp

theorem directoryAnswer_eq_none_iff (env : OsEnvironment) (id : CredentialId) :
    (env.credentialsDirectory.bind fun dir =>
        fileAnswer env.toEnvironment id .directory (joinPath dir id)) = none ↔
      ∀ dir ∈ env.credentialsDirectory, (env.file (joinPath dir id)).probe matches .notPresent := by
  simp only [Option.bind_eq_none_iff, fileAnswer_eq_none_iff, Option.mem_def]

theorem sees_resolve (hread : Readable env.toEnvironment) (hunicode : ¬ NotUnicode env id) :
    Sees owners (resolve configDir env id owners) (lookupAnswer configDir env.toEnvironment id) := by
  have hdirectory := sees_directory hread id owners
  have hnone := directoryAnswer_eq_none_iff env id
  unfold resolve lookupAnswer
  rw [env.var_eq]
  generalize env.credentialsDirectory.bind _ = a at hdirectory hnone ⊢
  generalize (match env.directoryVar.filter env.isDir with
    | some dir => Progress.start.probe env id owners .directory (joinPath dir id)
    | none => Progress.start) = p at hdirectory ⊢
  cases hdirectory with
  | resolved step path secret => exact .resolved step path secret
  | failed step path reason err => exact .failed step path reason err
  | nothing =>
    have hempty := hnone.mp rfl
    cases hvar : env.varOs (toEnvVar id) with
    | none =>
      cases configDir with
      | none => exact .nothing
      | some dir => exact sees_probe hread .configDir _
    | some bytes =>
      cases htext : String.fromUTF8? bytes with
      | none => exact absurd ⟨hempty, bytes, hvar, htext⟩ hunicode
      | some value =>
        rw [Option.bind_some, htext]
        exact .resolved .variable none value

theorem resolve_of_notUnicode (h : NotUnicode env id) :
    resolve configDir env id owners = ⟨some .variable, none⟩ := by
  obtain ⟨hempty, bytes, hvar, -⟩ := h
  have hstart : (match env.directoryVar.filter env.isDir with
      | some dir => Progress.start.probe env id owners .directory (joinPath dir id)
      | none => Progress.start) = .start := by
    rw [← env.directory_eq]
    cases hdir : env.credentialsDirectory with
    | none => rfl
    | some dir => exact Progress.start.probe_of_notPresent (hempty dir hdir)
  unfold resolve
  rw [hstart, hvar]
  rfl

theorem lookupAnswer_of_notUnicode (h : NotUnicode env id) (path : Option String)
    (result : Except String String) :
    lookupAnswer configDir env.toEnvironment id ≠ some ⟨.variable, path, result⟩ := by
  obtain ⟨hempty, bytes, hvar, htext⟩ := h
  rw [lookupAnswer, (directoryAnswer_eq_none_iff env id).mpr hempty, env.var_eq, hvar, Option.bind_some, htext]
  intro hvariable
  obtain ⟨dir, -, hfile⟩ := Option.bind_eq_some_iff.mp hvariable
  obtain ⟨_, -, heq⟩ := Option.map_eq_some_iff.mp hfile
  cases heq

/-- The pre-flight takes an id for resolved at a step exactly if the daemon gets it there,
and reports a path exactly if the daemon fails there. -/
structure Agrees (configDir : Option String) (env : OsEnvironment) (id : CredentialId)
    (owners : List String) : Prop where
  resolved : ∀ step, (resolve configDir env id owners).resolved = some step ↔
    ∃ path secret, lookupAnswer configDir env.toEnvironment id = some ⟨step, path, .ok secret⟩ ∧
      freshSecret configDir env.toEnvironment id = .ok secret
  failed : ∀ path, (∃ reason, (resolve configDir env id owners).resolutionError =
      some (.credentialInvariant path reason owners)) ↔
    ∃ step err, lookupAnswer configDir env.toEnvironment id = some ⟨step, some path, .error err⟩ ∧
      freshSecret configDir env.toEnvironment id = .error err

theorem Sees.agrees
    (h : Sees owners (resolve configDir env id owners)
      (lookupAnswer configDir env.toEnvironment id)) : Agrees configDir env id owners := by
  have hfresh := freshSecret_eq configDir env.toEnvironment id
  generalize hprogress : resolve configDir env id owners = p at h
  generalize hanswer : lookupAnswer configDir env.toEnvironment id = a at h hfresh
  constructor
  · intro step
    rw [hprogress, hanswer]
    cases h with
    | nothing => simp [Progress.start]
    | resolved step' path secret => simpa using fun _ => hfresh
    | failed step' path reason err => simp
  · intro path
    rw [hprogress, hanswer]
    cases h with
    | nothing => simp [Progress.start]
    | resolved step path' secret => simp
    | failed step path' reason err => simpa using fun _ => hfresh

theorem NotUnicode.not_agrees (h : NotUnicode env id) : ¬ Agrees configDir env id owners := by
  intro hagrees
  obtain ⟨path, secret, hanswer, -⟩ :=
    (hagrees.resolved .variable).mp (by rw [resolve_of_notUnicode h])
  exact lookupAnswer_of_notUnicode h path (.ok secret) hanswer

def Passes (configDir : Option String) (env : OsEnvironment) (consumer : CredentialId × List String) :
    Prop :=
  (resolve configDir env consumer.1 consumer.2).resolutionError = none ∧
    ((resolve configDir env consumer.1 consumer.2).resolved.isSome ∨
      (env.directoryVar.filter env.isDir).isSome)

theorem checkCredential_eq_nil_iff {configPath : String}
    {lines : ExtTreeMap CredentialId (List Nat)} {report : Report}
    {consumer : CredentialId × List String} :
    (checkCredential configPath configDir lines env report consumer).notFound = [] ↔
      report.notFound = [] ∧ Passes configDir env consumer := by
  obtain ⟨id, owners⟩ := consumer
  simp only [checkCredential, Passes]
  cases (resolve configDir env id owners).resolutionError with
  | some e => simp
  | none =>
    cases (resolve configDir env id owners).resolved with
    | some step => simp
    | none => cases env.directoryVar.filter env.isDir <;> simp

theorem foldl_checkCredential_eq_nil_iff {configPath : String}
    {lines : ExtTreeMap CredentialId (List Nat)} {report : Report}
    {consumers : List (CredentialId × List String)} :
    (consumers.foldl (checkCredential configPath configDir lines env) report).notFound = [] ↔
      report.notFound = [] ∧ ∀ consumer ∈ consumers, Passes configDir env consumer := by
  induction consumers generalizing report with
  | nil => simp
  | cons consumer consumers ih =>
    rw [List.foldl_cons, ih, checkCredential_eq_nil_iff, List.forall_mem_cons, and_assoc]

theorem isSome_collectConsumers {config : Config} {owner : String}
    (h : (id, owner) ∈ walkCredentials config) : ((collectConsumers config)[id]?).isSome := by
  have hfold (refs : List (CredentialId × String)) (m : ExtTreeMap CredentialId (List String))
      (hmem : (id, owner) ∈ refs ∨ (m[id]?).isSome) :
      ((refs.foldl (fun out r => pushAt out r.1 r.2) m)[id]?).isSome := by
    induction refs generalizing m with
    | nil => exact hmem.resolve_left List.not_mem_nil
    | cons r refs ih =>
      apply ih (pushAt m r.1 r.2)
      rw [pushAt, lookup_insert]
      obtain hr | hm := hmem
      · obtain rfl | hrest := List.mem_cons.mp hr
        · exact .inr (by rw [if_pos rfl]; rfl)
        · exact .inl hrest
      · refine .inr ?_
        split
        · rfl
        · exact hm
  rw [collectConsumers, ExtTreeMap.getElem?_map, Option.isSome_map]
  exact hfold _ _ (.inl h)

/-- Outside of a unit a check that passes vouches for every credential the config names,
unless its variable is not Unicode. -/
theorem passed_check {configPath : String} {config : Config}
    {lines : ExtTreeMap CredentialId (List Nat)} {spool : List CheckError}
    (hpass : (run configPath configDir config lines spool env).2 = 0)
    (hdirectory : env.credentialsDirectory = none) (hread : Readable env.toEnvironment)
    {owner : String} (hid : (id, owner) ∈ walkCredentials config)
    (hunicode : ¬ NotUnicode env id) :
    ∃ secret, freshSecret configDir env.toEnvironment id = .ok secret := by
  have hempty : ((collectConsumers config).toList.foldl
      (checkCredential configPath configDir lines env) ⟨spool, []⟩).notFound = [] := by
    simp only [run] at hpass
    split at hpass
    case isTrue h => exact List.isEmpty_iff.mp h
    case isFalse => cases hpass
  obtain ⟨owners, howners⟩ := Option.isSome_iff_exists.mp (isSome_collectConsumers hid)
  obtain ⟨herror, hresolved⟩ := (foldl_checkCredential_eq_nil_iff.mp hempty).2 (id, owners)
    (ExtTreeMap.mem_toList_iff_getElem?_eq_some.mpr howners)
  rw [← env.directory_eq, hdirectory] at hresolved
  obtain ⟨secret, hsecret⟩ := (sees_resolve hread hunicode).result (hresolved.resolve_right nofun)
  exact ⟨secret, by rw [freshSecret_eq, hsecret]; rfl⟩

/-- For every id and every environment in which a file that may be used can be read, the
pre-flight agrees with the daemon exactly if it does not come to a variable that is set to
something else than Unicode. -/
theorem agrees_iff (configDir : Option String) (env : OsEnvironment) (id : CredentialId)
    (owners : List String) (hread : Readable env.toEnvironment) :
    Agrees configDir env id owners ↔ ¬ NotUnicode env id :=
  ⟨fun h hnotUnicode => hnotUnicode.not_agrees h, fun h => (sees_resolve hread h).agrees⟩

def shell (value : ByteArray) : OsEnvironment where
  credentialsDirectory := none
  var _ := String.fromUTF8? value
  file _ := ⟨.notPresent, .error "No such file or directory"⟩
  githubClient _ _ := .ok ()
  parseWebhookUrl _ := .ok ()
  discordClient := .ok ()
  directoryVar := none
  isDir _ := false
  varOs _ := some value
  directory_eq := rfl
  var_eq _ := rfl

theorem readable_shell (value : ByteArray) : Readable (shell value).toEnvironment := by
  intro path h
  cases h

theorem agrees_on_token : Agrees none (shell "token".toUTF8) "github" ["linux"] := by
  apply (agrees_iff none _ "github" ["linux"] (readable_shell _)).mpr
  rintro ⟨-, _, ⟨⟩, hnone⟩
  have hvalid : "token".toUTF8.IsValidUTF8 := "token".isValidUTF8
  rw [String.fromUTF8?, dif_pos hvalid] at hnone
  cases hnone

/-- A variable that holds the byte `0xff`. -/
theorem latin_token_disagrees :
    ¬ ∀ (configDir : Option String) (env : OsEnvironment) (id : CredentialId)
      (owners : List String), Readable env.toEnvironment → Agrees configDir env id owners := by
  intro h
  have hnotUnicode : NotUnicode (shell ⟨#[0xff]⟩) "github" :=
    ⟨nofun, ⟨#[0xff]⟩, rfl, by decide⟩
  exact hnotUnicode.not_agrees (h none (shell ⟨#[0xff]⟩) "github" ["linux"] (readable_shell _))

end Gcit.Cli.Check
