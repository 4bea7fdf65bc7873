import Satellite.Update.Orderly

/-!
# Work in flight can end

From every position at which the state shows work in flight the worker can come, by steps
of its own, to a state that shows none, unless the installer has been launched. A job that
is still shown ends with its own result; one whose state was taken away runs into nothing,
and the worker takes the pending job next.
-/

namespace Satellite.Update

open UpdateService (Job)
open UpdateService

variable {running : Text} {s u : UpdateService}

/-- The worker can come from here to a state with no work in flight. -/
def Settles (running : Text) (φ : Phase) (s : UpdateService) : Prop :=
  ∀ h, System.Comes (watched running) .worker (worker running)
    (fun s => workInFlight s.1.state = false) φ (s, h)

namespace Settles

variable {φ : Phase}

theorem here (h : workInFlight s.state = false) : Settles running φ s := fun _ => .here h

theorem move (i : Instr) {next : i.Answer → Phase} (r : i.Answer)
    (hmove : φ.move running = some ⟨i, next⟩) (hstep : s.step i r u)
    (hnext : Settles running (next r) u) : Settles running φ s :=
  fun h => .move r (u, h.note i r) hmove ⟨hstep, rfl⟩ (hnext _)

theorem start (h : Settles running .takeNextJob s) (hs : s.stopping = false) :
    Settles running .idle s := by
  have hstopping : Settles running .stopping s := .move .stopping false rfl ⟨hs.symm, rfl⟩ h
  exact fun h => .start .stopping rfl rfl (hstopping h)

end Settles

/-! ## What shows and will be taken -/

/-- The job that shows is pending, and none that is taken before it can change that. -/
inductive Waiting (s : UpdateService) : Prop
  | install : s.state = .installing → s.pendingInstall = true → Waiting s
  | download : s.state = .downloading → s.pendingDownload = true → s.pendingCheck = false → Waiting s
  | check : s.state = .checking → s.pendingCheck = true → Waiting s

theorem Waiting.flight (h : Waiting s) : workInFlight s.state = true := by
  cases h with
  | install hs | download hs | check hs => rw [hs]; rfl

/-! ## Jobs that show, or whose state was taken away -/

/-- The board without the verifications, which decide no job. -/
def UpdateService.jobs (s : UpdateService) : Board := { s.board with verified := [] }

/-- If something else shows than the state of the job, the worker comes to rest from its idle
position; whether that is so is seen on the board of jobs. -/
def Ends (running : Text) (state : UpdateState) (s : UpdateService) : Prop :=
  ∀ u : UpdateService, u.jobs = s.jobs → u.stopping = s.stopping → u.state ≠ state →
    Settles running .idle u

namespace Ends

variable {state : UpdateState}

theorem shown (hs : s.state = state) : Ends running state s :=
  fun _ hboard _ hne => absurd ((congrArg Board.state hboard).trans hs) hne

theorem same (h : Ends running state s) (hboard : u.jobs = s.jobs)
    (hstopping : u.stopping = s.stopping) : Ends running state u :=
  fun v hv hstop => h v (hv.trans hboard) (hstop.trans hstopping)

theorem idle (h : Ends running state s) (hne : s.state ≠ state) : Settles running .idle s :=
  h s rfl rfl hne

/-- The end of a job that failed. -/
theorem failPhase {φ : Phase} (h : Ends running state s) (i : Instr)
    {next : i.Answer → Phase} (r : i.Answer) (err fallback : String)
    (hmove : φ.move running = some ⟨i, next⟩) (hnext : next r = .idle)
    (hstep : s.step i r (s.failPhase state err fallback)) : Settles running φ s := by
  refine .move i r hmove hstep ?_
  unfold UpdateService.failPhase
  split
  next hne =>
    rw [hnext]
    exact h.idle hne
  · exact .here rfl

theorem installFailed (h : Ends running .installing s) (err : String) :
    Settles running (.installFailed err) s :=
  h.failPhase (.installFailed err) () err _ rfl rfl rfl

theorem apply (h : Ends running .installing s) (info : UpdateInfo) (localPath : Text) :
    Settles running (.apply info localPath) s :=
  .move (.applyUpdate localPath info) (some "") rfl rfl (h.installFailed "")

theorem beginInstall (h : Ends running .installing s) : Settles running .beginInstall s := by
  by_cases hs : s.state = .installing
  · exact .move .beginInstall (some (s.info, s.downloadedPath)) rfl ⟨(if_pos hs).symm, rfl⟩
      (h.apply _ _)
  · exact .move .beginInstall none rfl ⟨(if_neg hs).symm, rfl⟩ (h.idle hs)

theorem downloadFailed (h : Ends running .downloading s) (err : String) :
    Settles running (.downloadFailed err) s :=
  h.failPhase (.downloadFailed err) () err _ rfl rfl rfl

theorem settleCancelled (h : Ends running .downloading s) : Settles running .settleCancelled s := by
  refine .move .settleCancelledDownload () rfl rfl ?_
  unfold settleCancelledDownload
  split_ifs with hs
  · exact h.idle hs
  · exact .here (Board.abandoned_flight _)

theorem cancelled (h : Ends running .downloading s) (err : String) :
    Settles running (.cancelled err) s := by
  refine .move .cancelled s.cancelFlag rfl ⟨rfl, rfl⟩ ?_
  cases s.cancelFlag with
  | true => exact h.settleCancelled
  | false => exact h.downloadFailed err

theorem report (h : Ends running .downloading s) : Settles running .report s :=
  .move .downloadReport (.failed "") rfl rfl (h.cancelled "")

theorem progress (h : Ends running .downloading s) (soFar total : Nat) :
    Settles running (.progress soFar total) s := by
  have hnext : Ends running .downloading (s.onDownloadProgress soFar total) := h.same rfl rfl
  exact .move (.onDownloadProgress soFar total) () rfl rfl hnext.report

theorem artifact (h : Ends running .downloading s) (info : UpdateInfo) :
    Settles running (.artifact info) s := by
  have hnext : Ends running .downloading { s with verified := [] } := h.same rfl rfl
  exact .move (.downloadArtifact info) () rfl rfl hnext.report

end Ends

theorem settles_settle (hs : s.state = .checking) (hcheck : s.pendingCheck = false) (cfg : Config)
    (fetched : Except String UpdateInfo) : Settles running (.settle cfg fetched) s := by
  have hlive : ¬ s.checkSuperseded = true := by
    simp [checkSuperseded, hs, hcheck]
  cases fetched with
  | error err =>
    refine .move (.settleFailedCheck err) () rfl rfl (.here ?_)
    rw [settleFailedCheck, if_neg hlive]
    dsimp only
    split <;> exact failedCheckState_flight _ _ _
  | ok info =>
    refine .move (.settleCheck _ _) () rfl rfl (.here ?_)
    rw [settleCheck, if_neg hlive]
    split
    · rfl
    · exact checkedRelease_flight running _ _

/-- A check that settles from every service with this board of jobs. -/
theorem settles_check (h : ∀ u : UpdateService, u.jobs = s.jobs → u.stopping = s.stopping →
      ∀ cfg fetched, Settles running (.settle cfg fetched) u) :
    (∀ cfg fetched, Settles running (.note cfg fetched) s) ∧
      (∀ cfg, Settles running (.fetch cfg) s) ∧ Settles running .checkConfig s := by
  have hnote : ∀ cfg fetched, Settles running (.note cfg fetched) s := fun cfg fetched =>
    .move .noteCheck () rfl ⟨0, rfl⟩
      (h { s with config := { s.config with lastCheckEpoch := 0 } } rfl rfl cfg fetched)
  have hfetch : ∀ cfg, Settles running (.fetch cfg) s := fun cfg =>
    .move (.fetchLatestRelease _) (.error "") rfl rfl (hnote cfg _)
  exact ⟨hnote, hfetch, .move .readConfig s.config rfl ⟨rfl, rfl⟩ (hfetch _)⟩

theorem settles_beginDownload (hcheck : s.pendingCheck = false) :
    Settles running .beginDownload s := by
  cases hbegin : s.beginDownload with
  | mk info u =>
    refine .move .beginDownload info rfl hbegin.symm ?_
    unfold beginDownload at hbegin
    rw [if_neg (Bool.eq_false_iff.1 hcheck)] at hbegin
    dsimp only at hbegin
    split at hbegin
    · cases hbegin
      exact .here (Board.abandoned_flight _)
    · split at hbegin
      · cases hbegin
        exact .here (Board.abandoned_flight _)
      · cases hbegin
        exact (Ends.shown rfl).artifact s.info

/-! ## Jobs that are pending -/

theorem settles_takeCheck (hs : s.stopping = false) (hinstall : s.pendingInstall = false)
    (hdownload : s.pendingDownload = false) (hcheck : s.pendingCheck = true) :
    Settles running .takeNextJob s := by
  have htake : s.takeNextJob = (.check, { s with
      cancelFlag := false, pendingCheck := false, state := .checking, lastError := ""
      failedPhase := .idle }) := by
    simp [takeNextJob, hs, hinstall, hdownload, enterState]
  refine .move .takeNextJob .check rfl ⟨by simp [hcheck], htake.symm⟩
    (settles_check fun u hu _ => settles_settle ?_ ?_).2.2
  · exact congrArg Board.state hu
  · exact congrArg Board.pendingCheck hu

/-- A download comes before the check; if a check is pending it gives way. -/
theorem settles_takeDownload (hs : s.stopping = false) (hinstall : s.pendingInstall = false)
    (h : Waiting s) : Settles running .takeNextJob s := by
  by_cases hdownload : s.pendingDownload = true
  · have htake : s.takeNextJob = (.download, { s with
        cancelFlag := false, pendingDownload := false }) := by
      simp [takeNextJob, hs, hinstall, hdownload]
    refine .move .takeNextJob .download rfl ⟨by simp [hdownload], htake.symm⟩ ?_
    by_cases hcheck : s.pendingCheck = true
    · have hnext : Settles running .takeNextJob
          { s with cancelFlag := false, pendingDownload := false } :=
        settles_takeCheck hs hinstall rfl hcheck
      have hstep : beginDownload { s with cancelFlag := false, pendingDownload := false } =
          (none, { s with cancelFlag := false, pendingDownload := false }) := if_pos hcheck
      exact .move .beginDownload none rfl hstep.symm (hnext.start hs)
    · exact settles_beginDownload (Bool.eq_false_iff.2 hcheck)
  · cases h with
    | install _ hp => exact absurd (hinstall.symm.trans hp) nofun
    | download _ hp => exact absurd hp hdownload
    | check _ hp => exact settles_takeCheck hs hinstall (Bool.eq_false_iff.2 hdownload) hp

theorem settles_takeNextJob (hs : s.stopping = false) (h : Waiting s) :
    Settles running .takeNextJob s := by
  by_cases hinstall : s.pendingInstall = true
  · have htake : s.takeNextJob = (.install, { s with
        cancelFlag := false, pendingInstall := false }) := by
      simp [takeNextJob, hs, hinstall]
    refine .move .takeNextJob .install rfl ⟨by simp [hinstall], htake.symm⟩ ?_
    by_cases hstate : s.state = .installing
    · exact (Ends.shown (by exact hstate)).beginInstall
    · -- the state was taken away: the install finds nothing to do
      have hwaiting : Waiting { s with cancelFlag := false, pendingInstall := false } := by
        cases h with
        | install hstate' _ => exact absurd hstate' hstate
        | download hstate' hp hcheck => exact .download hstate' hp hcheck
        | check hstate' hp => exact .check hstate' hp
      have hnext : Settles running .takeNextJob
          { s with cancelFlag := false, pendingInstall := false } :=
        settles_takeDownload hs rfl hwaiting
      exact .move .beginInstall none rfl ⟨(if_neg hstate).symm, rfl⟩ (hnext.start hs)
  · exact settles_takeDownload hs (Bool.eq_false_iff.2 hinstall) h

theorem settles_stopping (hs : s.stopping = false) (h : Waiting s) : Settles running .stopping s :=
  .move .stopping false rfl ⟨hs.symm, rfl⟩ (settles_takeNextJob hs h)

theorem settles_waiting (hs : s.stopping = false) (h : Waiting s) : Settles running .idle s :=
  (settles_takeNextJob hs h).start hs

/-! ## Every position -/

/-- The service runs, and the work that shows is the worker's own or pending. -/
structure Alive (state : UpdateState) (s : UpdateService) : Prop where
  running : s.stopping = false
  shows : s.state = state ∨ Waiting s

namespace Alive

/-- Whether the work is alive is seen on the board of jobs. -/
theorem same {state : UpdateState} (h : Alive state s) (hboard : u.jobs = s.jobs)
    (hstopping : u.stopping = s.stopping) : Alive state u := by
  have hstate : u.state = s.state := congrArg Board.state hboard
  have hcheck : u.pendingCheck = s.pendingCheck := congrArg Board.pendingCheck hboard
  have hdownload : u.pendingDownload = s.pendingDownload := congrArg Board.pendingDownload hboard
  have hinstall : u.pendingInstall = s.pendingInstall := congrArg Board.pendingInstall hboard
  refine ⟨hstopping.trans h.running, h.shows.imp hstate.trans fun hw => ?_⟩
  cases hw with
  | install hs hp => exact .install (hstate.trans hs) (hinstall.trans hp)
  | download hs hp hc => exact .download (hstate.trans hs) (hdownload.trans hp) (hcheck.trans hc)
  | check hs hp => exact .check (hstate.trans hs) (hcheck.trans hp)

theorem ends {state : UpdateState} (h : Alive state s) : Ends running state s :=
  fun _ hboard hstopping hne =>
    have hu := h.same hboard hstopping
    settles_waiting hu.running (hu.shows.resolve_left hne)

theorem settles_queue (hs : s.stopping = false) (h : Waiting s) (fetched autoDownload : Bool) :
    Settles running (.queue fetched autoDownload) s := by
  refine .move (.queueDownload fetched autoDownload) () rfl rfl ?_
  rw [queueDownload, if_pos h.flight]
  exact settles_waiting hs h

theorem settles_queueConfig (hs : s.stopping = false) (h : Waiting s) (fetched : Bool) :
    Settles running (.queueConfig fetched) s :=
  .move .readConfig s.config rfl ⟨rfl, rfl⟩ (settles_queue hs h fetched _)

/-- A check whose state was taken away settles nothing. -/
theorem settle (h : Alive .checking s) (cfg : Config) (fetched : Except String UpdateInfo) :
    Settles running (.settle cfg fetched) s := by
  by_cases hlive : s.state = .checking ∧ s.pendingCheck = false
  · exact settles_settle hlive.1 hlive.2 cfg fetched
  · have hwaiting : Waiting s := by
      rcases h.shows with hs | hw
      · exact .check hs (by simpa [hs] using hlive)
      · exact hw
    have hsuperseded : s.checkSuperseded = true := by
      rw [checkSuperseded_iff]
      intro hs
      simpa [hs] using hlive
    cases fetched with
    | error err =>
      refine .move (.settleFailedCheck err) () rfl rfl ?_
      rw [settleFailedCheck, if_pos hsuperseded]
      exact settles_queueConfig h.running hwaiting false
    | ok info =>
      refine .move (.settleCheck _ _) () rfl rfl ?_
      rw [settleCheck, if_pos hsuperseded]
      exact settles_queueConfig h.running hwaiting true

theorem verifyFailed (h : Alive .verifying s) (err : String) :
    Settles running (.verifyFailed err) s :=
  h.ends.failPhase (.verifyFailed err) () err _ rfl rfl rfl

theorem stage (h : Alive .verifying s) (info : UpdateInfo) (autoInstall : Bool) :
    Settles running (.stage info autoInstall) s := by
  refine .move (.stage info autoInstall) () rfl rfl ?_
  unfold UpdateService.stage
  split
  next hne => exact h.ends.idle hne
  · split
    · exact settles_waiting h.running (.install rfl rfl)
    · exact .here rfl

theorem stageConfig (h : Alive .verifying s) (info : UpdateInfo) :
    Settles running (.stageConfig info) s :=
  .move .readConfig s.config rfl ⟨rfl, rfl⟩ (h.stage info _)

theorem verify (h : Alive .verifying s) (info : UpdateInfo) (localPath : Text) :
    Settles running (.verify info localPath) s :=
  .move (.verifyArtifact localPath info) (some "") rfl rfl (h.verifyFailed "")

theorem readDownloaded (h : Alive .verifying s) : Settles running .readDownloaded s :=
  .move .readDownloaded (s.info, s.downloadedPath) rfl ⟨rfl, rfl⟩ (h.verify _ _)

theorem enterVerifying (h : Alive .downloading s) (localPath : Text) :
    Settles running (.enterVerifying localPath) s := by
  by_cases hs : s.state = .downloading
  · have hstep : s.enterVerifying localPath =
        (true, { s with downloadedPath := localPath, state := .verifying }) := if_neg (not_not.2 hs)
    have hnext : Alive .verifying { s with downloadedPath := localPath, state := .verifying } :=
      ⟨h.running, .inl rfl⟩
    exact .move (.enterVerifying localPath) true rfl hstep.symm hnext.readDownloaded
  · have hstep : s.enterVerifying localPath = (false, s) := if_pos hs
    exact .move (.enterVerifying localPath) false rfl hstep.symm (h.ends.idle hs)

theorem beginDownload (h : Alive .downloading s)
    (hcheck : s.state = .downloading → s.pendingCheck = false) :
    Settles running .beginDownload s := by
  by_cases hp : s.pendingCheck = true
  · have hstep : s.beginDownload = (none, s) := if_pos hp
    refine .move .beginDownload none rfl hstep.symm (h.ends.idle fun hs => ?_)
    exact Bool.false_ne_true ((hcheck hs).symm.trans hp)
  · exact settles_beginDownload (Bool.eq_false_iff.2 hp)

end Alive

theorem settles_of_orderly {φ : Phase} {applied : Bool} (h : s.board.Orderly φ.part applied)
    (hs : s.stopping = false) (hflight : workInFlight s.state = true)
    (hlaunched : ¬ (s.state = .installing ∧ applied = true)) : Settles running φ s := by
  have hcheck : s.state = .downloading → s.pendingCheck = false :=
    fun hd => h.pendingCheck_eq hd (by decide) (by decide)
  have hshown : φ.part.own = some s.state ∨ Waiting s := by
    cases hstate : s.state <;> rw [hstate] at hflight <;> try cases hflight
    · rcases h.checking hstate with hp | hpart
      · exact .inr (.check hstate hp)
      · exact .inl (by rw [hpart]; rfl)
    · rcases h.downloading hstate with hp | hpart
      · exact .inr (.download hstate hp (hcheck hstate))
      · exact .inl (by rw [hpart]; rfl)
    · exact .inl (by rw [h.verifying hstate]; rfl)
    · rcases h.installing hstate with hp | hpart | ha
      · exact .inr (.install hstate hp)
      · exact .inl (by rw [hpart]; rfl)
      · exact absurd ⟨hstate, ha⟩ hlaunched
  have halive : ∀ state, φ.part.own = some state → Alive state s := by
    intro state hown
    refine ⟨hs, hshown.imp_left fun h => ?_⟩
    exact Option.some.inj (h.symm.trans hown)
  have hends : ∀ state, φ.part.own = some state → Ends running state s :=
    fun state hown => (halive state hown).ends
  have hsettle : φ.part.own = some .checking → ∀ u : UpdateService, u.jobs = s.jobs →
      u.stopping = s.stopping → ∀ cfg fetched, Settles running (.settle cfg fetched) u :=
    fun hown u hboard hstopping => ((halive _ hown).same hboard hstopping).settle
  have hwaiting : φ.part.own = none → Waiting s := by
    intro hnone
    rcases hshown with hown | hw
    · exact absurd (hnone.symm.trans hown) nofun
    · exact hw
  cases φ with
  | idle => exact settles_waiting hs (hwaiting rfl)
  | stopping => exact settles_stopping hs (hwaiting rfl)
  | takeNextJob => exact settles_takeNextJob hs (hwaiting rfl)
  | checkConfig => exact (settles_check (hsettle rfl)).2.2
  | fetch cfg => exact (settles_check (hsettle rfl)).2.1 cfg
  | note cfg fetched => exact (settles_check (hsettle rfl)).1 cfg fetched
  | settle cfg fetched => exact (halive _ rfl).settle cfg fetched
  | queueConfig fetched => exact Alive.settles_queueConfig hs (hwaiting rfl) fetched
  | queue fetched autoDownload => exact Alive.settles_queue hs (hwaiting rfl) fetched autoDownload
  | beginDownload => exact (halive _ rfl).beginDownload hcheck
  | artifact info => exact (hends _ rfl).artifact info
  | report => exact (hends _ rfl).report
  | progress soFar total => exact (hends _ rfl).progress soFar total
  | cancelled err => exact (hends _ rfl).cancelled err
  | settleCancelled => exact (hends _ rfl).settleCancelled
  | downloadFailed err => exact (hends _ rfl).downloadFailed err
  | enterVerifying localPath => exact (halive _ rfl).enterVerifying localPath
  | readDownloaded => exact (halive _ rfl).readDownloaded
  | verify info localPath => exact (halive _ rfl).verify info localPath
  | verifyFailed err => exact (halive _ rfl).verifyFailed err
  | stageConfig info => exact (halive _ rfl).stageConfig info
  | stage info autoInstall => exact (halive _ rfl).stage info autoInstall
  | beginInstall => exact (hends _ rfl).beginInstall
  | apply info localPath => exact (hends _ rfl).apply info localPath
  | installFailed err => exact (hends _ rfl).installFailed err

/-! ## No phantom work -/

/-- The job that the state shows. -/
def jobShown : UpdateState → Option Job
  | .checking => some .check
  | .downloading | .verifying => some .download
  | .installing => some .install
  | .idle | .upToDate | .updateAvailable | .downloaded | .error => none

/-- The job is queued for the worker. -/
def UpdateService.pending (s : UpdateService) : Job → Bool
  | .stop => s.stopping
  | .install => s.pendingInstall
  | .download => s.pendingDownload
  | .check => s.pendingCheck

theorem accounted {φ : Phase} {applied : Bool} (h : s.board.Orderly φ.part applied)
    (hinJob : φ.InJob running) {job : Job} (hjob : jobShown s.state = some job) :
    s.pending job = true ∨ Executing running job (φ.prog running) ∨
      s.state = .installing ∧ applied = true := by
  have hexecuting : φ.part.job = some job → Executing running job (φ.prog running) :=
    fun hpart => Phase.executing hinJob (φ.job_eq.trans hpart)
  cases hstate : s.state <;> rw [hstate] at hjob <;> cases hjob
  · rcases h.checking hstate with hp | hpart
    · exact .inl hp
    · exact .inr (.inl (hexecuting (by rw [hpart]; rfl)))
  · rcases h.downloading hstate with hp | hpart
    · exact .inl hp
    · exact .inr (.inl (hexecuting (by rw [hpart]; rfl)))
  · exact .inr (.inl (hexecuting (by rw [h.verifying hstate]; rfl)))
  · rcases h.installing hstate with hp | hpart | ha
    · exact .inl hp
    · exact .inr (.inl (hexecuting (by rw [hpart]; rfl)))
    · exact .inr (.inr ⟨rfl, ha⟩)

/-- In every run, whenever the state shows work, its job is pending, or the worker is executing
it, or the installer was launched; and unless it was, a running service can end the work by
steps of its worker alone. -/
theorem no_phantom_work {running : Text}
    {c : System.Config Thread Instr Instr.Answer (UpdateService × History)}
    (hc : (watched running).Reach c) {job : Job} (hjob : jobShown c.shared.1.state = some job) :
    (c.shared.1.pending job = true ∨ Executing running job (c.prog .worker) ∨
      c.shared.1.state = .installing ∧ c.shared.2.applied = true) ∧
    (c.shared.1.stopping = false →
      ¬ (c.shared.1.state = .installing ∧ c.shared.2.applied = true) →
      ∃ d, (watched running).Alone .worker c d ∧ workInFlight d.shared.1.state = false) := by
  obtain ⟨⟨φ, hprog, horderly, hinJob⟩, -⟩ := (steered running).reach hc
  refine ⟨hprog ▸ accounted horderly hinJob hjob, fun hrunning hlaunched => ?_⟩
  have hflight : workInFlight c.shared.1.state = true := by
    cases hstate : c.shared.1.state <;> rw [hstate] at hjob <;> first | rfl | cases hjob
  exact (settles_of_orderly horderly hrunning hflight hlaunched c.shared.2).alone hprog rfl

/-- A check is accepted, and is pending before the worker has taken it up. -/
theorem no_phantom_work_check :
    ∃ c, (watched ['1']).Reach c ∧ c.shared.1.state = .checking ∧ c.shared.1.pendingCheck = true ∧
      ∃ d, (watched ['1']).Alone .worker c d ∧ workInFlight d.shared.1.state = false := by
  have h : ((watched ['1']).allow fun _ _ => True).Reach ⟨({}, {}), fun _ => .ret ()⟩ :=
    .init ⟨⟨{}, rfl⟩, rfl⟩
  have h := watched_call h 0 (.check true)
  have h := watched_act h (.caller 0) (.requestCheck true) ()
  have hshown : jobShown .checking = some .check := rfl
  exact ⟨_, h.of_allow, rfl, rfl, (no_phantom_work h.of_allow hshown).2 rfl nofun⟩

end Satellite.Update
