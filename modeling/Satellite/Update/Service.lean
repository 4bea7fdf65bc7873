import Satellite.Lib.Interleaving

/-!
# The update service

`UpdateService` of `core/update_service.cpp`. Any number of callers and one worker
thread share the service; every critical section under `mtx_`, every read or update of
the config and every call of the updater port is one instruction. The port may answer
anything. The version comparison is that of `core/semver.h`.

The running version is a parameter. Log lines and broadcasts are left out, and so are
the fields of a release that only travel to the dashboard or the port.
-/

namespace Satellite.Update

/-- A `std::string` by its characters. -/
abbrev Text := List Char

/-! ## Versions -/

def semverSplitDots : Text → List Text
  | [] => [[]]
  | c :: s =>
    if c = '.' then [] :: semverSplitDots s
    else match semverSplitDots s with
      | [] => [[c]]
      | x :: xs => (c :: x) :: xs

def semverIdentIsNumeric (s : Text) : Bool :=
  !s.isEmpty && s.all fun c => decide ('0' ≤ c ∧ c ≤ '9')

def compareText : Text → Text → Ordering
  | [], [] => .eq
  | [], _ :: _ => .lt
  | _ :: _, [] => .gt
  | a :: x, b :: y => if a < b then .lt else if b < a then .gt else compareText x y

/-- Without its leading zeros, down to the last character. -/
def stripZeros : Text → Text
  | c :: d :: s => if c = '0' then stripZeros (d :: s) else c :: d :: s
  | s => s

def semverCompareNumericIdent (a b : Text) : Ordering :=
  let a := stripZeros a
  let b := stripZeros b
  if a.length ≠ b.length then if a.length < b.length then .lt else .gt else compareText a b

def semverCompareIdents : List Text → List Text → Ordering
  | [], [] => .eq
  | [], _ :: _ => .lt
  | _ :: _, [] => .gt
  | x :: xs, y :: ys =>
    match semverIdentIsNumeric x, semverIdentIsNumeric y with
    | true, true => (semverCompareNumericIdent x y).then (semverCompareIdents xs ys)
    | true, false => .lt
    | false, true => .gt
    | false, false => (compareText x y).then (semverCompareIdents xs ys)

def semverComparePrerelease (a b : Text) : Ordering :=
  match a.isEmpty, b.isEmpty with
  | true, true => .eq
  | true, false => .gt
  | false, true => .lt
  | false, false => semverCompareIdents (semverSplitDots a) (semverSplitDots b)

/-- One of the three numbers of a version; what is missing or no number reads as 0. -/
def coreIdent (core : List Text) (i : Nat) : Text :=
  match core[i]? with
  | some x => if semverIdentIsNumeric x then x else ['0']
  | none => ['0']

def compareSemver (a b : Text) : Ordering :=
  let aCore := semverSplitDots (a.takeWhile fun c => c ≠ '-')
  let bCore := semverSplitDots (b.takeWhile fun c => c ≠ '-')
  let ident := fun i => semverCompareNumericIdent (coreIdent aCore i) (coreIdent bCore i)
  (ident 0).then <| (ident 1).then <| (ident 2).then <|
    semverComparePrerelease ((a.dropWhile fun c => c ≠ '-').drop 1)
      ((b.dropWhile fun c => c ≠ '-').drop 1)

/-! ## The service -/

inductive UpdateState
  | idle
  | checking
  | upToDate
  | updateAvailable
  | downloading
  | verifying
  | downloaded
  | installing
  | error
  deriving DecidableEq

inductive InstallMethod
  | selfInstall
  | manual
  deriving DecidableEq

structure UpdateInfo where
  available : Bool := false
  version : Text := []
  assetName : Text := []
  assetSize : Nat := 0
  assetSha256 : Text := []
  installMethod : InstallMethod := .selfInstall
  deriving DecidableEq

structure InstallerIdentity where
  version : Text := []
  assetName : Text := []
  assetSha256 : Text := []
  deriving DecidableEq

def UpdateInfo.identity (info : UpdateInfo) : InstallerIdentity :=
  ⟨info.version, info.assetName, info.assetSha256⟩

structure Config where
  updateChannel : Text := "stable".toList
  autoCheck : Bool := true
  autoDownload : Bool := false
  autoInstall : Bool := false
  skipVersion : Text := []
  lastSeenVersion : Text := []
  lastCheckEpoch : Int := 0

structure UpdateService where
  state : UpdateState := .idle
  info : UpdateInfo := {}
  lastError : String := ""
  failedPhase : UpdateState := .idle
  bytesDownloaded : Nat := 0
  bytesTotal : Nat := 0
  downloadedPath : Text := []
  staged : InstallerIdentity := {}
  dismissedVersion : Text := []
  userInitiatedCheck : Bool := false
  pendingCheck : Bool := false
  pendingDownload : Bool := false
  repairPending : Bool := false
  pendingInstall : Bool := false
  cancelFlag : Bool := false
  stopping : Bool := false
  config : Config := {}
  /-- The successful verifications since the last download started. -/
  verified : List (Text × InstallerIdentity) := []

def workInFlight : UpdateState → Bool
  | .checking | .downloading | .verifying | .installing => true
  | .idle | .upToDate | .updateAvailable | .downloaded | .error => false

def dismissible (state : UpdateState) : Bool := state == .updateAvailable || state == .downloaded

def failedCheckState (userInitiated knownIsStaged knownIsNewer : Bool) : UpdateState :=
  if userInitiated then .error
  else if knownIsStaged then .downloaded
  else if knownIsNewer then .updateAvailable
  else .error

theorem failedCheckState_flight (userInitiated knownIsStaged knownIsNewer : Bool) :
    workInFlight (failedCheckState userInitiated knownIsStaged knownIsNewer) = false := by
  unfold failedCheckState
  repeat' split
  all_goals rfl

inductive RetryStep
  | none
  | download
  | repair
  | install
  | check

def retryStepFor (state failedPhase : UpdateState) (releaseIsNewer : Bool) : RetryStep :=
  if state ≠ .error then .none
  else match failedPhase with
    | .downloading | .verifying => if releaseIsNewer then .download else .repair
    | .installing => .install
    | .idle | .checking | .upToDate | .updateAvailable | .downloaded | .error => .check

namespace UpdateService

/-! ### Under the lock -/

def enterState (s : UpdateService) (state : UpdateState) : UpdateService :=
  { s with state := state, lastError := "", failedPhase := .idle }

def acceptCheck (s : UpdateService) (userInitiated : Bool) : UpdateService :=
  { s with pendingCheck := true, userInitiatedCheck := userInitiated }.enterState .checking

def acceptDownload (s : UpdateService) : UpdateService :=
  { s with pendingDownload := true, dismissedVersion := []
           bytesDownloaded := 0, bytesTotal := s.info.assetSize }.enterState .downloading

def acceptInstall (s : UpdateService) : UpdateService :=
  { s with pendingInstall := true, repairPending := false
           dismissedVersion := [] }.enterState .installing

def abandonDownload (s : UpdateService) : UpdateService :=
  { s with bytesDownloaded := 0, bytesTotal := 0 }.enterState
    (if s.info.available then .updateAvailable else .idle)

def checkQueued (s : UpdateService) : Bool := s.pendingCheck || s.state == .checking

def checkSuperseded (s : UpdateService) : Bool := s.state != .checking || s.pendingCheck

theorem checkSuperseded_iff {s : UpdateService} : s.checkSuperseded = true ↔
    (s.state = .checking → s.pendingCheck = true) := by
  simp [checkSuperseded, imp_iff_not_or]

def isStaged (s : UpdateService) (info : UpdateInfo) : Bool :=
  s.staged.version ≠ [] && info.identity == s.staged

/-! ### The sections of the callers -/

def requestCheck (s : UpdateService) (userInitiated : Bool) : UpdateService :=
  let s' := if s.checkQueued && userInitiated then { s with userInitiatedCheck := true } else s
  if s.checkQueued || workInFlight s.state then s' else s'.acceptCheck userInitiated

def requestDownload (s : UpdateService) : UpdateService :=
  if s.state ≠ .updateAvailable ∧ s.state ≠ .error then s
  else if !s.info.available then s
  else if s.info.installMethod = .manual then s
  else s.acceptDownload

def requestRepair (s : UpdateService) : UpdateService :=
  if s.info.installMethod = .manual then s
  else if s.checkQueued then
    { s with repairPending := true, userInitiatedCheck := true, dismissedVersion := [] }
  else if workInFlight s.state || s.state == .downloaded then s
  else
    let s := { s with repairPending := true }
    if s.info.version = [] then s.acceptCheck true else s.acceptDownload

def requestInstall (s : UpdateService) : UpdateService :=
  let downloaded := s.state == .downloaded
  let installFailed := s.state == .error && s.failedPhase == .installing
  if !downloaded && !installFailed then s
  else if !s.isStaged s.info then s
  else s.acceptInstall

def cancelInFlight (s : UpdateService) : UpdateService :=
  let s := { s with cancelFlag := true }
  if s.pendingDownload then
    { s with pendingDownload := false, repairPending := false }.abandonDownload
  else s

/-- The section of `skipVersion`, after the config update. -/
def forgetVersion (s : UpdateService) (version : Text) : UpdateService :=
  let s := if s.info.version = version then { s with info := {} }.enterState .idle else s
  if s.staged.version = version then { s with staged := {} } else s

/-- The section of `dismiss`, with the version that was dismissed. -/
def dismissOffer (s : UpdateService) : Option Text × UpdateService :=
  if dismissible s.state then
    (some s.info.version, { s with dismissedVersion := s.info.version })
  else (none, s)

/-- `applyPreferences`, and whether the channel changed. -/
def applyPreferences (s : UpdateService) (channel : Text)
    (autoCheck autoDownload autoInstall : Bool) : Bool × UpdateService :=
  let ch := if channel ≠ "stable".toList ∧ channel ≠ "prerelease".toList then "stable".toList
    else channel
  (ch != s.config.updateChannel,
    { s with config := { s.config with
      updateChannel := ch, autoCheck := autoCheck, autoDownload := autoDownload
      autoInstall := autoInstall } })

/-! ### The sections of the worker -/

inductive Job
  | stop
  | install
  | download
  | check
  deriving DecidableEq

/-- `takeNextJob` where its wait is over. -/
def takeNextJob (s : UpdateService) : Job × UpdateService :=
  if s.stopping then (.stop, s)
  else
    let s := { s with cancelFlag := false }
    if s.pendingInstall then (.install, { s with pendingInstall := false })
    else if s.pendingDownload then (.download, { s with pendingDownload := false })
    else (.check, { s with pendingCheck := false }.enterState .checking)

def settleCheck (s : UpdateService) (state : UpdateState) (info : UpdateInfo) : UpdateService :=
  if s.checkSuperseded then s
  else { s with info := info, dismissedVersion := [] }.enterState
    (if s.isStaged info then .downloaded else state)

def settleFailedCheck (s : UpdateService) (err : String) : UpdateService :=
  if s.checkSuperseded then s
  else
    let settled := failedCheckState s.userInitiatedCheck (s.isStaged s.info) s.info.available
    let s := s.enterState settled
    if settled = .error then
      { s with
        lastError := if err = "" then "Update check failed (network or API error)" else err
        failedPhase := .checking }
    else s

def queueDownload (s : UpdateService) (fetched autoDownload : Bool) : UpdateService :=
  if workInFlight s.state then s
  else
    let selfInstallable := s.info.installMethod == .selfInstall
    let offered := fetched && s.state == .updateAvailable && selfInstallable
    let repairUsable := fetched && s.state != .downloaded && s.info.version ≠ [] && selfInstallable
    let repairWanted := s.repairPending && repairUsable
    let s := { s with repairPending := repairWanted }
    if (autoDownload && offered) || repairWanted then s.acceptDownload else s

def beginDownload (s : UpdateService) : Option UpdateInfo × UpdateService :=
  if s.pendingCheck then (none, s)
  else
    let repair := s.repairPending
    let s := { s with repairPending := false }
    if !s.info.available && !repair then
      (none, { s.abandonDownload with lastError := "No update to download" })
    else if s.info.installMethod = .manual then (none, s.abandonDownload)
    else
      (some s.info,
        { s with
          state := .downloading, lastError := "", failedPhase := .idle, bytesDownloaded := 0
          bytesTotal := s.info.assetSize, staged := {} })

def onDownloadProgress (s : UpdateService) (soFar total : Nat) : UpdateService :=
  { s with bytesDownloaded := soFar, bytesTotal := if 0 < total then total else s.bytesTotal }

/-- A phase of the worker ends in an error, unless the state has moved on. -/
def failPhase (s : UpdateService) (phase : UpdateState) (err fallback : String) : UpdateService :=
  if s.state ≠ phase then s
  else
    { s with
      state := .error, lastError := if err = "" then fallback else err, failedPhase := phase }

def downloadFailed (s : UpdateService) (err : String) : UpdateService :=
  s.failPhase .downloading err "Download failed"

def settleCancelledDownload (s : UpdateService) : UpdateService :=
  if s.state ≠ .downloading then s else s.abandonDownload

/-- The end of a successful download; whether the artifact is to be verified. -/
def enterVerifying (s : UpdateService) (localPath : Text) : Bool × UpdateService :=
  if s.state ≠ .downloading then (false, s)
  else (true, { s with downloadedPath := localPath, state := .verifying })

def verifyFailed (s : UpdateService) (err : String) : UpdateService :=
  s.failPhase .verifying err "Signature/checksum verification failed"

def stage (s : UpdateService) (info : UpdateInfo) (autoInstall : Bool) : UpdateService :=
  if s.state ≠ .verifying then s
  else
    let s := { s with state := .downloaded, staged := info.identity }
    if autoInstall then s.acceptInstall else s

def installFailed (s : UpdateService) (err : String) : UpdateService :=
  s.failPhase .installing err "Failed to launch installer"

end UpdateService

/-! ## Instructions -/

/-- What a running download reports next. -/
inductive DownloadReport
  | progress (soFar total : Nat)
  | done (localPath : Text)
  | failed (err : String)

inductive Instr
  | requestCheck (userInitiated : Bool)
  | requestDownload
  | requestRepair
  | requestInstall
  | retryStep
  | cancelInFlight
  | setSkipVersion (version : Text)
  | forgetVersion (version : Text)
  | dismissOffer
  | setLastSeenVersion (version : Text)
  | applyPreferences (channel : Text) (autoCheck autoDownload autoInstall : Bool)
  /-- The timer's look at the config and the clock. -/
  | checkDue
  | stop
  | stopping
  | takeNextJob
  | readConfig
  | fetchLatestRelease (channel : Text)
  | noteCheck
  | settleCheck (state : UpdateState) (info : UpdateInfo)
  | settleFailedCheck (err : String)
  | queueDownload (fetched autoDownload : Bool)
  | beginDownload
  /-- The call of `downloadArtifact`, up to its first report. -/
  | downloadArtifact (info : UpdateInfo)
  | downloadReport
  | onDownloadProgress (soFar total : Nat)
  | cancelled
  | downloadFailed (err : String)
  | settleCancelledDownload
  | enterVerifying (localPath : Text)
  | readDownloaded
  | verifyArtifact (localPath : Text) (info : UpdateInfo)
  | verifyFailed (err : String)
  | stage (info : UpdateInfo) (autoInstall : Bool)
  | beginInstall
  | applyUpdate (localPath : Text) (info : UpdateInfo)
  | installFailed (err : String)

def Instr.Answer : Instr → Type
  | .retryStep => RetryStep
  | .dismissOffer => Option Text
  | .applyPreferences .. | .checkDue | .stopping | .cancelled | .enterVerifying _ => Bool
  | .takeNextJob => UpdateService.Job
  | .readConfig => Config
  | .fetchLatestRelease _ => Except String UpdateInfo
  | .beginDownload => Option UpdateInfo
  | .downloadReport => DownloadReport
  | .readDownloaded => UpdateInfo × Text
  | .beginInstall => Option (UpdateInfo × Text)
  /- The error text, or nothing on success. -/
  | .verifyArtifact .. | .applyUpdate .. => Option String
  | .requestCheck _ | .requestDownload | .requestRepair | .requestInstall | .cancelInFlight
  | .setSkipVersion _ | .forgetVersion _ | .setLastSeenVersion _ | .stop | .noteCheck
  | .settleCheck .. | .settleFailedCheck _ | .queueDownload .. | .downloadArtifact _
  | .onDownloadProgress .. | .downloadFailed _ | .settleCancelledDownload | .verifyFailed _
  | .stage .. | .installFailed _ => Unit

/-- The instruction may answer `r` and move the service. -/
def UpdateService.step (s : UpdateService) : (i : Instr) → i.Answer → UpdateService → Prop
  | .requestCheck userInitiated, _, u => u = s.requestCheck userInitiated
  | .requestDownload, _, u => u = s.requestDownload
  | .requestRepair, _, u => u = s.requestRepair
  | .requestInstall, _, u => u = s.requestInstall
  | .retryStep, r, u => r = retryStepFor s.state s.failedPhase s.info.available ∧ u = s
  | .cancelInFlight, _, u => u = s.cancelInFlight
  | .setSkipVersion version, _, u => u = { s with config := { s.config with skipVersion := version } }
  | .forgetVersion version, _, u => u = s.forgetVersion version
  | .dismissOffer, r, u => (r, u) = s.dismissOffer
  | .setLastSeenVersion version, _, u =>
    u = { s with config := { s.config with lastSeenVersion := version } }
  | .applyPreferences channel check download install, r, u =>
    (r, u) = s.applyPreferences channel check download install
  | .checkDue, r, u => (r = true → s.config.autoCheck = true) ∧ u = s
  | .stop, _, u => u = { s with stopping := true, cancelFlag := true }
  | .stopping, r, u => r = s.stopping ∧ u = s
  | .takeNextJob, r, u =>
    (s.stopping || s.pendingCheck || s.pendingDownload || s.pendingInstall) = true ∧
      (r, u) = s.takeNextJob
  | .readConfig, r, u => r = s.config ∧ u = s
  | .fetchLatestRelease _, _, u => u = s
  | .noteCheck, _, u => ∃ now, u = { s with config := { s.config with lastCheckEpoch := now } }
  | .settleCheck state info, _, u => u = s.settleCheck state info
  | .settleFailedCheck err, _, u => u = s.settleFailedCheck err
  | .queueDownload fetched autoDownload, _, u => u = s.queueDownload fetched autoDownload
  | .beginDownload, r, u => (r, u) = s.beginDownload
  | .downloadArtifact _, _, u => u = { s with verified := [] }
  | .downloadReport, _, u => u = s
  | .onDownloadProgress soFar total, _, u => u = s.onDownloadProgress soFar total
  | .cancelled, r, u => r = s.cancelFlag ∧ u = s
  | .downloadFailed err, _, u => u = s.downloadFailed err
  | .settleCancelledDownload, _, u => u = s.settleCancelledDownload
  | .enterVerifying localPath, r, u => (r, u) = s.enterVerifying localPath
  | .readDownloaded, r, u => r = (s.info, s.downloadedPath) ∧ u = s
  | .verifyArtifact localPath info, r, u =>
    u = if r.isNone then { s with verified := (localPath, info.identity) :: s.verified } else s
  | .verifyFailed err, _, u => u = s.verifyFailed err
  | .stage info autoInstall, _, u => u = s.stage info autoInstall
  | .beginInstall, r, u =>
    r = (if s.state = .installing then some (s.info, s.downloadedPath) else none) ∧ u = s
  | .applyUpdate .., _, u => u = s
  | .installFailed err, _, u => u = s.installFailed err

/-! ## Programs -/

abbrev Task := Prog Instr Instr.Answer

/-- Issue one instruction. -/
def run (i : Instr) : Task i.Answer := Prog.call i

/-- What other threads call, with the rounds of the timer thread. -/
inductive Request
  | check (userInitiated : Bool)
  | download
  | repair
  | install
  | retry
  | cancel
  | skipVersion (version : Text)
  | dismiss
  | updatePreferences (channel : Text) (autoCheck autoDownload autoInstall : Bool)
  | timer
  | stop

def requestRetry : Task Unit := do
  match (← run .retryStep : RetryStep) with
  | .none => pure ()
  | .download => run .requestDownload
  | .repair => run .requestRepair
  | .install => run .requestInstall
  | .check => run (.requestCheck true)

def skipVersion (version : Text) : Task Unit := do
  (run (.setSkipVersion version) : Task Unit)
  run (.forgetVersion version)

def dismiss : Task Unit := do
  match (← run .dismissOffer : Option Text) with
  | none => pure ()
  | some version => run (.setLastSeenVersion version)

def updatePreferences (channel : Text) (autoCheck autoDownload autoInstall : Bool) :
    Task Unit := do
  let channelChanged : Bool ← run (.applyPreferences channel autoCheck autoDownload autoInstall)
  if channelChanged then run (.requestCheck false) else pure ()

/-- One round of `timerLoop`. -/
def timerRound : Task Unit := do
  let shouldCheck : Bool ← run .checkDue
  if shouldCheck then run (.requestCheck false) else pure ()

def Request.task : Request → Task Unit
  | .check userInitiated => run (.requestCheck userInitiated)
  | .download => run .requestDownload
  | .repair => run .requestRepair
  | .install => run .requestInstall
  | .retry => requestRetry
  | .cancel => run .cancelInFlight
  | .skipVersion version => Update.skipVersion version
  | .dismiss => Update.dismiss
  | .updatePreferences channel autoCheck autoDownload autoInstall =>
    Update.updatePreferences channel autoCheck autoDownload autoInstall
  | .timer => timerRound
  | .stop => run .stop

section Worker

variable (running : Text)

/-- What a check settles with for a fetched release. -/
def checkedRelease (skipVer : Text) (info : UpdateInfo) : UpdateState × UpdateInfo :=
  let info := { info with available := compareSemver info.version running == .gt }
  if !info.available then (.upToDate, info)
  else if skipVer ≠ [] ∧ compareSemver info.version skipVer ≠ .gt then
    (.upToDate, { info with available := false })
  else (.updateAvailable, info)

theorem checkedRelease_state (skipVer : Text) (info : UpdateInfo) :
    (checkedRelease running skipVer info).1 = .upToDate ∨
      (checkedRelease running skipVer info).1 = .updateAvailable := by
  unfold checkedRelease
  dsimp only
  split
  · exact .inl rfl
  · split
    · exact .inl rfl
    · exact .inr rfl

theorem checkedRelease_flight (skipVer : Text) (info : UpdateInfo) :
    workInFlight (checkedRelease running skipVer info).1 = false := by
  rcases checkedRelease_state running skipVer info with h | h <;> rw [h] <;> rfl

def doCheck : Task Bool := do
  let cfg : Config ← run .readConfig
  let fetched : Except String UpdateInfo ← run (.fetchLatestRelease cfg.updateChannel)
  (run .noteCheck : Task Unit)
  match fetched with
  | .error err => do
    (run (.settleFailedCheck err) : Task Unit)
    pure false
  | .ok info => do
    let (state, info) := checkedRelease running cfg.skipVersion info
    (run (.settleCheck state info) : Task Unit)
    pure true

def queueDownloadIfWanted (fetched : Bool) : Task Unit := do
  let cfg : Config ← run .readConfig
  run (.queueDownload fetched cfg.autoDownload)

def doVerify : Task Unit := do
  let (info, localPath) : UpdateInfo × Text ← run .readDownloaded
  match (← run (.verifyArtifact localPath info) : Option String) with
  | some err => run (.verifyFailed err)
  | none => do
    let cfg : Config ← run .readConfig
    run (.stage info cfg.autoInstall)

/-- The reports of a download up to its last: the path, or the error. -/
def awaitDownload : Task (Except String Text) :=
  .loop do
    match (← run .downloadReport : DownloadReport) with
    | .progress soFar total => do
      (run (.onDownloadProgress soFar total) : Task Unit)
      pure none
    | .done localPath => pure (some (.ok localPath))
    | .failed err => pure (some (.error err))

def doDownload : Task Unit := do
  match (← run .beginDownload : Option UpdateInfo) with
  | none => pure ()
  | some info => do
    (run (.downloadArtifact info) : Task Unit)
    match ← awaitDownload with
    | .error err => do
      let cancelled : Bool ← run .cancelled
      if cancelled then run .settleCancelledDownload else run (.downloadFailed err)
    | .ok localPath => do
      let verify : Bool ← run (.enterVerifying localPath)
      if verify then doVerify else pure ()

def doInstall : Task Unit := do
  match (← run .beginInstall : Option (UpdateInfo × Text)) with
  | none => pure ()
  | some (info, localPath) => do
    match (← run (.applyUpdate localPath info) : Option String) with
    | some err => run (.installFailed err)
    | none => pure ()

/-- One round of `workerLoop`. -/
def workerRound : Task Unit := do
  let stopping : Bool ← run .stopping
  if stopping then pure ()
  else match (← run .takeNextJob : UpdateService.Job) with
    | .stop => pure ()
    | .install => doInstall
    | .download => doDownload
    | .check => do
      let fetched ← doCheck running
      queueDownloadIfWanted fetched

end Worker

/-! ## The system -/

inductive Thread
  | worker
  | caller (n : Nat)
  deriving DecidableEq

/-- The service with its worker and any number of callers. -/
def updates (running : Text) : System Thread Instr Instr.Answer UpdateService where
  init s := ∃ config, s = { config := config }
  step _ i s r u := s.step i r u
  menu t p := match t with
    | .worker => p = workerRound running
    | .caller _ => ∃ req : Request, p = req.task

/-- A release as the port reports it. -/
def reported (version : Text) : UpdateInfo := { version := version, assetName := ['a'] }

section Runs

variable {Y : System Thread Instr Instr.Answer UpdateService}
  {c : System.Config Thread Instr Instr.Answer UpdateService}

/-- A caller makes a request. What a concrete run does is evaluated. -/
theorem reach_call (hc : Y.Reach c) (n : Nat) (req : Request)
    (hp : Y.menu (.caller n) req.task := by exact ⟨_, rfl⟩)
    (hidle : (c.prog (.caller n)).view = .done () := by rfl) :
    Y.Reach ⟨c.shared, Function.update c.prog (.caller n) req.task⟩ :=
  .step hc (.start _ _ hidle hp)

/-- The worker begins a round. -/
theorem reach_round (hc : Y.Reach c) (running : Text)
    (hp : Y.menu .worker (workerRound running) := by rfl)
    (hidle : (c.prog .worker).view = .done () := by rfl) :
    Y.Reach ⟨c.shared, Function.update c.prog .worker (workerRound running)⟩ :=
  .step hc (.start _ _ hidle hp)

/-- A thread takes the next step of its task. -/
theorem reach_act (hc : Y.Reach c) (t : Thread) (i : Instr) (r : i.Answer) {s : UpdateService}
    {k : i.Answer → Task Unit} (hask : (c.prog t).view = .ask i k := by rfl)
    (hstep : Y.step t i c.shared r s := by
      first
        | exact rfl
        | exact ⟨rfl, rfl⟩
        | exact ⟨0, rfl⟩
        | exact ⟨rfl, trivial⟩
        | exact ⟨⟨rfl, rfl⟩, trivial⟩
        | exact ⟨⟨0, rfl⟩, trivial⟩) :
    Y.Reach ⟨s, Function.update c.prog t (k r)⟩ :=
  .step hc (.act t i k r s hask hstep)

end Runs

end Satellite.Update
