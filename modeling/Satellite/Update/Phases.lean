import Satellite.Update.Callers

/-!
# Where the worker is

The positions of the worker in its round, each with the data it has read so far and the
program that is left. A record beside the service keeps what the results about whole runs
refer to: which releases the port has reported, whether the last installer was launched
and which version was skipped last.
-/

namespace Satellite.Update

open UpdateService (Job)
open Prog

/-! ## Positions -/

inductive Phase
  | idle
  | stopping
  | takeNextJob
  | checkConfig
  | fetch (cfg : Config)
  | note (cfg : Config) (fetched : Except String UpdateInfo)
  | settle (cfg : Config) (fetched : Except String UpdateInfo)
  | queueConfig (fetched : Bool)
  | queue (fetched autoDownload : Bool)
  | beginDownload
  | artifact (info : UpdateInfo)
  | report
  | progress (soFar total : Nat)
  | cancelled (err : String)
  | settleCancelled
  | downloadFailed (err : String)
  | enterVerifying (localPath : Text)
  | readDownloaded
  | verify (info : UpdateInfo) (localPath : Text)
  | verifyFailed (err : String)
  | stageConfig (info : UpdateInfo)
  | stage (info : UpdateInfo) (autoInstall : Bool)
  | beginInstall
  | apply (info : UpdateInfo) (localPath : Text)
  | installFailed (err : String)

section Worker

variable (running : Text)

/-- The rest of a check whose release has been fetched, or not. -/
def settleFetched (cfg : Config) : Except String UpdateInfo → Task Unit
  | .error err => .op (.settleFailedCheck err) fun _ => queueDownloadIfWanted false
  | .ok info =>
    .op (.settleCheck (checkedRelease running cfg.skipVersion info).1
      (checkedRelease running cfg.skipVersion info).2) fun _ => queueDownloadIfWanted true

/-- The rest of a verification whose answer is in. -/
def settleVerified (info : UpdateInfo) : Option String → Task Unit
  | some err => run (.verifyFailed err)
  | none => .op .readConfig fun cfg : Config => run (.stage info cfg.autoInstall)

/-- The rest of a download whose last report is in. -/
def settleDownloaded : Except String Text → Task Unit
  | .error err => .op .cancelled fun cancelled : Bool =>
    if cancelled then run .settleCancelledDownload else run (.downloadFailed err)
  | .ok localPath => .op (.enterVerifying localPath) fun verify : Bool =>
    if verify then doVerify else .ret ()

/-- The rest of an install whose installer was launched, or not. -/
def settleApplied : Option String → Task Unit
  | some err => run (.installFailed err)
  | none => .ret ()

/-- What the worker runs for a job. -/
def Job.task : Job → Task Unit
  | .stop => .ret ()
  | .install => doInstall
  | .download => doDownload
  | .check => (doCheck running).bind queueDownloadIfWanted

namespace Phase

/-- The program that is left. -/
def prog : Phase → Task Unit
  | idle => .ret ()
  | stopping => workerRound running
  | takeNextJob => .op .takeNextJob (Job.task running)
  | checkConfig => Job.task running .check
  | fetch cfg => .op (.fetchLatestRelease cfg.updateChannel) fun fetched =>
    .op .noteCheck fun _ => settleFetched running cfg fetched
  | note cfg fetched => .op .noteCheck fun _ => settleFetched running cfg fetched
  | settle cfg fetched => settleFetched running cfg fetched
  | queueConfig fetched => queueDownloadIfWanted fetched
  | queue fetched autoDownload => run (.queueDownload fetched autoDownload)
  | beginDownload => doDownload
  | artifact info => .op (.downloadArtifact info) fun _ => awaitDownload.bind settleDownloaded
  | report => awaitDownload.bind settleDownloaded
  | progress soFar total =>
    .op (.onDownloadProgress soFar total) fun _ => awaitDownload.bind settleDownloaded
  | cancelled err => settleDownloaded (.error err)
  | settleCancelled => run .settleCancelledDownload
  | downloadFailed err => run (.downloadFailed err)
  | enterVerifying localPath => settleDownloaded (.ok localPath)
  | readDownloaded => doVerify
  | verify info localPath => .op (.verifyArtifact localPath info) (settleVerified info)
  | verifyFailed err => run (.verifyFailed err)
  | stageConfig info => settleVerified info none
  | stage info autoInstall => run (.stage info autoInstall)
  | beginInstall => doInstall
  | apply info localPath => .op (.applyUpdate localPath info) settleApplied
  | installFailed err => run (.installFailed err)

/-- The position a job starts at. -/
def ofJob : Job → Phase
  | .stop => idle
  | .install => beginInstall
  | .download => beginDownload
  | .check => checkConfig

/-- The next instruction and where its answer leads. -/
def move : Phase → Option ((i : Instr) × (i.Answer → Phase))
  | idle => none
  | stopping => some ⟨.stopping, fun (stopping : Bool) => if stopping then idle else takeNextJob⟩
  | takeNextJob => some ⟨.takeNextJob, ofJob⟩
  | checkConfig => some ⟨.readConfig, fetch⟩
  | fetch cfg => some ⟨.fetchLatestRelease cfg.updateChannel, note cfg⟩
  | note cfg fetched => some ⟨.noteCheck, fun _ => settle cfg fetched⟩
  | settle _ (.error err) => some ⟨.settleFailedCheck err, fun _ => queueConfig false⟩
  | settle cfg (.ok info) =>
    some ⟨.settleCheck (checkedRelease running cfg.skipVersion info).1
      (checkedRelease running cfg.skipVersion info).2, fun _ => queueConfig true⟩
  | queueConfig fetched => some ⟨.readConfig, fun (cfg : Config) => queue fetched cfg.autoDownload⟩
  | queue fetched autoDownload => some ⟨.queueDownload fetched autoDownload, fun _ => idle⟩
  | beginDownload => some ⟨.beginDownload, fun (info : Option UpdateInfo) => info.elim idle artifact⟩
  | artifact info => some ⟨.downloadArtifact info, fun _ => report⟩
  | report => some ⟨.downloadReport, fun (report : DownloadReport) => match report with
    | .progress soFar total => progress soFar total
    | .done localPath => enterVerifying localPath
    | .failed err => cancelled err⟩
  | progress soFar total => some ⟨.onDownloadProgress soFar total, fun _ => report⟩
  | cancelled err => some ⟨.cancelled, fun (cancelled : Bool) =>
    if cancelled then settleCancelled else downloadFailed err⟩
  | settleCancelled => some ⟨.settleCancelledDownload, fun _ => idle⟩
  | downloadFailed err => some ⟨.downloadFailed err, fun _ => idle⟩
  | enterVerifying localPath => some ⟨.enterVerifying localPath, fun (verify : Bool) =>
    if verify then readDownloaded else idle⟩
  | readDownloaded => some ⟨.readDownloaded, fun (read : UpdateInfo × Text) => verify read.1 read.2⟩
  | verify info localPath => some ⟨.verifyArtifact localPath info, fun (err : Option String) =>
    err.elim (stageConfig info) verifyFailed⟩
  | verifyFailed err => some ⟨.verifyFailed err, fun _ => idle⟩
  | stageConfig info => some ⟨.readConfig, fun (cfg : Config) => stage info cfg.autoInstall⟩
  | stage info autoInstall => some ⟨.stage info autoInstall, fun _ => idle⟩
  | beginInstall => some ⟨.beginInstall, fun (read : Option (UpdateInfo × Text)) =>
    read.elim idle fun read => apply read.1 read.2⟩
  | apply info localPath => some ⟨.applyUpdate localPath info, fun (err : Option String) =>
    err.elim idle installFailed⟩
  | installFailed err => some ⟨.installFailed err, fun _ => idle⟩

theorem prog_ofJob (job : Job) : (ofJob job).prog running = Job.task running job := by
  cases job <;> rfl

/-- The positions describe the worker's programs: each issues its own instruction next. -/
theorem view_prog (φ : Phase) : (φ.prog running).view = .ofMove (prog running) (φ.move running) := by
  -- where the answer decides, the programs agree answer by answer
  cases φ with
  | stopping =>
    refine Prog.View.ask_congr fun stopping => ?_
    cases stopping with
    | true => rfl
    | false => exact op_congr fun job => by cases job <;> rfl
  | takeNextJob => exact Prog.View.ask_congr fun job => (prog_ofJob running job).symm
  | checkConfig =>
    refine Prog.View.ask_congr fun cfg => op_congr fun fetched => op_congr fun _ => ?_
    cases fetched <;> rfl
  | settle cfg fetched => cases fetched <;> rfl
  | beginDownload =>
    refine Prog.View.ask_congr fun info => ?_
    cases info with
    | none => rfl
    | some info =>
      refine op_congr fun _ => ?_
      show Prog.bind awaitDownload _ = Prog.bind awaitDownload _
      refine bind_congr_right fun result => ?_
      cases result with
      | error err => exact op_congr fun cancelled => by cases cancelled <;> rfl
      | ok localPath => exact op_congr fun verify => by cases verify <;> rfl
  | report =>
    refine Prog.View.ask_congr fun report => ?_
    cases report <;> rfl
  | cancelled err =>
    refine Prog.View.ask_congr fun cancelled => ?_
    cases cancelled <;> rfl
  | enterVerifying localPath =>
    refine Prog.View.ask_congr fun verify => ?_
    cases verify <;> rfl
  | readDownloaded =>
    refine Prog.View.ask_congr fun read => op_congr fun err => ?_
    cases err <;> rfl
  | verify info localPath | apply info localPath =>
    refine Prog.View.ask_congr fun err => ?_
    cases err <;> rfl
  | beginInstall =>
    refine Prog.View.ask_congr fun read => ?_
    cases read with
    | none => rfl
    | some read => exact op_congr fun err => by cases err <;> rfl
  | _ => rfl

end Phase

/-- The worker's positions. -/
def worker : Prog.Chart Instr Instr.Answer where
  Pos := Phase
  prog := Phase.prog running
  move := Phase.move running
  view_prog := Phase.view_prog running

/-- The job a position belongs to. -/
def Phase.job : Phase → Option Job
  | .idle | .stopping | .takeNextJob => none
  | .checkConfig | .fetch _ | .note .. | .settle .. | .queueConfig _ | .queue .. => some .check
  | .beginDownload | .artifact _ | .report | .progress .. | .cancelled _ | .settleCancelled
  | .downloadFailed _ | .enterVerifying _ | .readDownloaded | .verify .. | .verifyFailed _
  | .stageConfig _ | .stage .. => some .download
  | .beginInstall | .apply .. | .installFailed _ => some .install

/-- What the worker is left with at a position of a job is a rest of that job. -/
def Phase.InJob (φ : Phase) : Prop :=
  ∀ job, φ.job = some job → (Job.task running job).Rest (φ.prog running)

/-- The worker has begun the job and has not ended it. -/
def Executing (job : Job) (p : Task Unit) : Prop :=
  (Job.task running job).Rest p ∧ p.view ≠ .done ()

variable {running}

/-- The callers issue only instructions of callers. -/
theorem callers_only (t : Thread) (p : Task Unit) (ht : t ≠ .worker)
    (hp : (updates running).menu t p) : p.Only (fun i => i.byCaller = true) := by
  cases t with
  | worker => exact absurd rfl ht
  | caller n =>
    obtain ⟨req, rfl⟩ := hp
    exact req.task_only

theorem Phase.eq_idle_of_move {φ : Phase} (h : φ.move running = none) : φ = .idle := by
  cases φ with
  | idle => rfl
  | settle cfg fetched => cases fetched <;> cases h
  | _ => cases h

theorem Phase.eq_artifact {φ : Phase} {info : UpdateInfo} {next : Unit → Phase}
    (hmove : φ.move running = some ⟨.downloadArtifact info, next⟩) : φ = .artifact info := by
  cases φ with
  | artifact found =>
    cases hmove
    rfl
  | settle cfg fetched => cases fetched <;> cases hmove
  | _ => cases hmove

theorem Phase.executing {φ : Phase} {job : Job} (h : φ.InJob running) (hjob : φ.job = some job) :
    Executing running job (φ.prog running) := by
  refine ⟨h job hjob, fun hdone => ?_⟩
  have hidle := Phase.eq_idle_of_move (Prog.Chart.move_of_done (C := worker running) hdone)
  rw [hidle] at hjob
  cases hjob

/-- A job begins where it is taken; every other step to a position of a job comes from one. -/
theorem Phase.job_of_move {φ : Phase} {i : Instr} {next : i.Answer → Phase} {r : i.Answer}
    {job : Job} (hmove : φ.move running = some ⟨i, next⟩) (hjob : (next r).job = some job) :
    φ.job = some job ∨ φ = .takeNextJob ∧ next r = .ofJob job := by
  cases φ with
  | idle => cases hmove
  | stopping =>
    cases hmove
    revert hjob
    cases r <;> nofun
  | takeNextJob =>
    cases hmove
    right
    cases r <;> cases hjob <;> exact ⟨rfl, rfl⟩
  | settle cfg fetched => cases fetched <;> cases hmove <;> exact .inl hjob
  | beginDownload =>
    cases hmove
    cases r with
    | none => cases hjob
    | some info => exact .inl hjob
  | report | cancelled err | verify info localPath =>
    cases hmove
    cases r <;> exact .inl hjob
  | enterVerifying localPath =>
    cases hmove
    cases r with
    | false => cases hjob
    | true => exact .inl hjob
  | beginInstall =>
    cases hmove
    cases r with
    | none => cases hjob
    | some read => exact .inl hjob
  | apply info localPath =>
    cases hmove
    cases r with
    | none => cases hjob
    | some err => exact .inl hjob
  | checkConfig | fetch _ | note _ _ | queueConfig _ | artifact _ | progress _ _ | readDownloaded
  | stageConfig _ =>
    cases hmove
    exact .inl hjob
  | queue _ _ | settleCancelled | downloadFailed _ | verifyFailed _ | stage _ _
  | installFailed _ =>
    cases hmove
    cases hjob

theorem Phase.InJob.move {φ : Phase} {i : Instr} {next : i.Answer → Phase} (h : φ.InJob running)
    (hmove : φ.move running = some ⟨i, next⟩) (r : i.Answer) : (next r).InJob running := by
  intro job hjob
  rcases Phase.job_of_move hmove hjob with hsame | ⟨-, hstart⟩
  · exact .step r (h job hsame) (Prog.Chart.view_of_some (C := worker running) hmove)
  · rw [hstart, Phase.prog_ofJob]
    exact .refl

end Worker

/-! ## The record -/

structure History where
  /-- The releases that `fetchLatestRelease` has reported, latest first. -/
  reported : List UpdateInfo := []
  /-- The install job taken last has launched its installer. -/
  applied : Bool := false
  /-- The version that a skip has stored last. -/
  stored : Option Text := none
  /-- The version whose skip has returned last, until another is skipped. -/
  skipped : Option Text := none

def History.note : (i : Instr) → i.Answer → History → History
  | .fetchLatestRelease _, .ok info, h => { h with reported := info :: h.reported }
  | .takeNextJob, .install, h => { h with applied := false }
  | .applyUpdate .., none, h => { h with applied := true }
  | .setSkipVersion version, _, h =>
    { h with
      stored := some version, skipped := if h.skipped = some version then h.skipped else none }
  | .forgetVersion version, _, h => { h with skipped := some version }
  | _, _, h => h

/-- The update service with its record. -/
def watched (running : Text) : System Thread Instr Instr.Answer (UpdateService × History) :=
  (updates running).record History.note {}

section Runs

variable {running : Text} {G : Instr → UpdateService × History → Prop}
  {s : UpdateService} {h : History} {prog : Thread → Task Unit}

theorem watched_call (hc : ((watched running).allow G).Reach ⟨(s, h), prog⟩) (n : Nat)
    (req : Request) (hidle : (prog (.caller n)).view = .done () := by rfl) :
    ((watched running).allow G).Reach ⟨(s, h), Function.update prog (.caller n) req.task⟩ :=
  .step hc (.start _ _ hidle ⟨req, rfl⟩)

theorem watched_round (hc : ((watched running).allow G).Reach ⟨(s, h), prog⟩)
    (hidle : (prog .worker).view = .done () := by rfl) :
    ((watched running).allow G).Reach
      ⟨(s, h), Function.update prog .worker (workerRound running)⟩ :=
  .step hc (.start _ _ hidle rfl)

/-- A thread takes the next step of its task, and the record notes it. -/
theorem watched_act (hc : ((watched running).allow G).Reach ⟨(s, h), prog⟩) (t : Thread)
    (i : Instr) (r : i.Answer) {u : UpdateService} {k : i.Answer → Task Unit}
    (hask : (prog t).view = .ask i k := by rfl)
    (hstep : s.step i r u := by first | exact rfl | exact ⟨rfl, rfl⟩ | exact ⟨0, rfl⟩)
    (g : G i (s, h) := by first | trivial | exact nofun | rfl) :
    ((watched running).allow G).Reach ⟨(u, h.note i r), Function.update prog t (k r)⟩ :=
  .step hc (.act t i k r (u, h.note i r) hask ⟨⟨hstep, rfl⟩, g⟩)

end Runs

end Satellite.Update
