import Satellite.Update.Phases

/-!
# What the worker can do

One step of the worker, said once over the board, the record and the worker's position: it
only reads, it takes a job, it settles one with a result, or it finds that the state it would
settle was taken away.
-/

namespace Satellite.Update

open UpdateService (Job)
open UpdateService

/-! ## The parts of a round -/

inductive Part
  | round
  | checking
  | settled
  | loading
  | verifying
  | installing
  deriving DecidableEq

def Phase.part : Phase → Part
  | .idle | .stopping | .takeNextJob => .round
  | .checkConfig | .fetch _ | .note .. | .settle .. => .checking
  | .queueConfig _ | .queue .. => .settled
  | .beginDownload | .artifact _ | .report | .progress .. | .cancelled _ | .settleCancelled
  | .downloadFailed _ | .enterVerifying _ => .loading
  | .readDownloaded | .verify .. | .verifyFailed _ | .stageConfig _ | .stage .. => .verifying
  | .beginInstall | .apply .. | .installFailed _ => .installing

/-- What the state shows while the worker is in the part and the work is its own. -/
def Part.own : Part → Option UpdateState
  | .checking => some .checking
  | .loading => some .downloading
  | .verifying => some .verifying
  | .installing => some .installing
  | .round | .settled => none

/-- The job a part belongs to. -/
def Part.job : Part → Option Job
  | .round => none
  | .checking | .settled => some .check
  | .loading | .verifying => some .download
  | .installing => some .install

theorem Phase.job_eq (φ : Phase) : φ.job = φ.part.job := by
  cases φ <;> rfl

theorem Part.job_of_own {part : Part} {state : UpdateState} (hown : part.own = some state)
    (hpart : part ≠ .checking) : part.job ≠ some .check := by
  cases part with
  | checking => exact absurd rfl hpart
  | round | settled => cases hown
  | loading | verifying | installing => nofun

theorem Part.eq_of_own {part part' : Part} {state : UpdateState} (h : part.own = some state)
    (h' : part'.own = some state) : part = part' := by
  cases part <;> cases h <;> cases part' <;> first | rfl | cases h'

/-- A position at which the worker holds no release and no setting it has read. -/
def Phase.plain : Phase → Bool
  | .checkConfig | .fetch _ | .note .. | .settle .. | .beginDownload | .artifact _ | .verify ..
  | .stageConfig _ | .stage .. | .apply .. => false
  | _ => true

/-! ## The steps -/

/-- The steps of the worker, by what they do to the board and the record. -/
inductive Turn (running : Text) (b : Board) (h : History) : Phase → Phase → Board → History → Prop
  /- Steps that leave the board alone. -/
  | quiet {φ ψ : Phase} : φ ≠ .beginDownload → ψ.part = φ.part → ψ.plain = true →
      Turn running b h φ ψ b h
  | readSkip (cfg : Config) : cfg.skipVersion = b.skipVersion →
      Turn running b h .checkConfig (.fetch cfg) b h
  | fetched (cfg : Config) (info : UpdateInfo) :
      Turn running b h (.fetch cfg) (.note cfg (.ok info)) b { h with reported := info :: h.reported }
  | fetchFailed (cfg : Config) (err : String) :
      Turn running b h (.fetch cfg) (.note cfg (.error err)) b h
  | note (cfg : Config) (fetched : Except String UpdateInfo) :
      Turn running b h (.note cfg fetched) (.settle cfg fetched) b h
  | readRelease : Turn running b h .readDownloaded (.verify b.info b.downloadedPath) b h
  | stageConfig (info : UpdateInfo) (autoInstall : Bool) :
      Turn running b h (.stageConfig info) (.stage info autoInstall) b h
  | applying : b.state = .installing →
      Turn running b h .beginInstall (.apply b.info b.downloadedPath) b h
  /- A file is written, and verified. -/
  | loading (info : UpdateInfo) :
      Turn running b h (.artifact info) .report { b with verified := [] } h
  | verified (info : UpdateInfo) (localPath : Text) :
      Turn running b h (.verify info localPath) (.stageConfig info)
        { b with verified := (localPath, info.identity) :: b.verified } h
  /- The state was taken away, or is another's. -/
  | late (cfg : Config) (fetched : Except String UpdateInfo) (ok : Bool) :
      (b.state = .checking → b.pendingCheck = true) →
      Turn running b h (.settle cfg fetched) (.queueConfig ok) b h
  | inFlight (fetched autoDownload : Bool) : workInFlight b.state = true →
      Turn running b h (.queue fetched autoDownload) .idle b h
  | giveWay : b.pendingCheck = true → Turn running b h .beginDownload .idle b h
  | missed {φ : Phase} {state : UpdateState} : φ.part.own = some state → φ.part ≠ .checking →
      φ ≠ .beginDownload → b.state ≠ state → Turn running b h φ .idle b h
  /- A job is taken. -/
  | takeInstall : b.pendingInstall = true →
      Turn running b h .takeNextJob .beginInstall { b with pendingInstall := false }
        { h with applied := false }
  | takeDownload : b.pendingInstall = false → b.pendingDownload = true →
      Turn running b h .takeNextJob .beginDownload { b with pendingDownload := false } h
  | takeCheck : b.pendingInstall = false → b.pendingDownload = false →
      Turn running b h .takeNextJob .checkConfig
        { b with pendingCheck := false, state := .checking } h
  /- A job settles. -/
  | settled (cfg : Config) (info : UpdateInfo) (state : UpdateState) :
      b.state = .checking → b.pendingCheck = false →
      (state = (checkedRelease running cfg.skipVersion info).1 ∨ state = .downloaded ∧
        b.staged.version ≠ [] ∧
        (checkedRelease running cfg.skipVersion info).2.identity = b.staged) →
      Turn running b h (.settle cfg (.ok info)) (.queueConfig true)
        { b with info := (checkedRelease running cfg.skipVersion info).2, state := state } h
  | settledFailed (cfg : Config) (err : String) (state : UpdateState) :
      b.state = .checking → b.pendingCheck = false →
      (state = .error ∨ state = .updateAvailable ∧ b.info.available = true ∨
        state = .downloaded ∧ b.staged.version ≠ [] ∧ b.info.identity = b.staged) →
      Turn running b h (.settle cfg (.error err)) (.queueConfig false) { b with state := state } h
  | dropped (fetched autoDownload : Bool) : workInFlight b.state = false →
      Turn running b h (.queue fetched autoDownload) .idle { b with repairPending := false } h
  | queued (fetched autoDownload repair : Bool) : workInFlight b.state = false →
      (b.state = .updateAvailable ∨ b.info.version ≠ [] ∧ b.repairPending = true) →
      (repair = true → b.info.version ≠ [] ∧ b.repairPending = true) →
      Turn running b h (.queue fetched autoDownload) .idle
        { b with state := .downloading, pendingDownload := true, repairPending := repair } h
  | abandoned (state : UpdateState) : b.pendingCheck = false →
      state = (if b.info.available then .updateAvailable else .idle) →
      Turn running b h .beginDownload .idle { b with state := state, repairPending := false } h
  | begun : b.pendingCheck = false → (b.info.available = true ∨ b.repairPending = true) →
      Turn running b h .beginDownload (.artifact b.info)
        { b with state := .downloading, staged := {}, repairPending := false } h
  | cancelled (state : UpdateState) : b.state = .downloading →
      state = (if b.info.available then .updateAvailable else .idle) →
      Turn running b h .settleCancelled .idle { b with state := state } h
  | enterVerifying (localPath : Text) : b.state = .downloading →
      Turn running b h (.enterVerifying localPath) .readDownloaded
        { b with state := .verifying, downloadedPath := localPath } h
  | staged (info : UpdateInfo) (autoInstall : Bool) : b.state = .verifying →
      Turn running b h (.stage info autoInstall) .idle
        { b with state := .downloaded, staged := info.identity } h
  | stagedInstall (info : UpdateInfo) (autoInstall : Bool) : b.state = .verifying →
      Turn running b h (.stage info autoInstall) .idle
        { b with
          state := .installing, staged := info.identity, pendingInstall := true
          repairPending := false } h
  | failed {φ : Phase} {state : UpdateState} : φ.part.own = some state → φ.part ≠ .checking →
      φ ≠ .beginDownload → b.state = state → Turn running b h φ .idle { b with state := .error } h
  | launched (info : UpdateInfo) (localPath : Text) :
      Turn running b h (.apply info localPath) .idle b { h with applied := true }

namespace UpdateService

variable {running : Text} {s : UpdateService} {h : History}

theorem takeNextJob_turn :
    Turn running s.board h .takeNextJob (.ofJob s.takeNextJob.1) s.takeNextJob.2.board
      (h.note .takeNextJob s.takeNextJob.1) := by
  unfold takeNextJob
  dsimp only
  split
  · exact .quiet nofun rfl rfl
  · split
    next hinstall => exact .takeInstall hinstall
    next hinstall =>
      split_ifs with hdownload
      · exact .takeDownload (Bool.eq_false_iff.2 hinstall) hdownload
      · exact .takeCheck (Bool.eq_false_iff.2 hinstall) (Bool.eq_false_iff.2 hdownload)

/-- A check that is not superseded is the one that shows. -/
theorem live_of_not_superseded (hlive : ¬ s.checkSuperseded = true) :
    s.state = .checking ∧ s.pendingCheck = false := by
  simpa [checkSuperseded] using hlive

theorem settleCheck_turn (cfg : Config) (info : UpdateInfo) :
    Turn running s.board h (.settle cfg (.ok info)) (.queueConfig true)
      (s.settleCheck (checkedRelease running cfg.skipVersion info).1
        (checkedRelease running cfg.skipVersion info).2).board h := by
  unfold settleCheck
  split
  next hsuperseded => exact .late cfg _ true (checkSuperseded_iff.1 hsuperseded)
  next hlive =>
    obtain ⟨hstate, hcheck⟩ := live_of_not_superseded hlive
    refine Turn.settled (b := s.board) cfg info _ hstate hcheck ?_
    split_ifs with hstaged
    · exact .inr ⟨rfl, s.isStaged_iff.1 hstaged⟩
    · exact .inl rfl

theorem settleFailedCheck_turn (cfg : Config) (err : String) :
    Turn running s.board h (.settle cfg (.error err)) (.queueConfig false)
      (s.settleFailedCheck err).board h := by
  unfold settleFailedCheck
  split
  next hsuperseded => exact .late cfg _ false (checkSuperseded_iff.1 hsuperseded)
  next hlive =>
    obtain ⟨hstate, hcheck⟩ := live_of_not_superseded hlive
    have hsettled : ∀ state, state = failedCheckState s.userInitiatedCheck (s.isStaged s.info)
        s.info.available → state = .error ∨ state = .updateAvailable ∧ s.info.available = true ∨
          state = .downloaded ∧ s.staged.version ≠ [] ∧ s.info.identity = s.staged := by
      rintro state rfl
      unfold failedCheckState
      split
      · exact .inl rfl
      · split
        next hstaged => exact .inr (.inr ⟨rfl, s.isStaged_iff.1 hstaged⟩)
        · split_ifs with havailable
          · exact .inr (.inl ⟨rfl, havailable⟩)
          · exact .inl rfl
    dsimp only
    split
    · exact Turn.settledFailed (b := s.board) cfg err _ hstate hcheck (hsettled _ rfl)
    · exact Turn.settledFailed (b := s.board) cfg err _ hstate hcheck (hsettled _ rfl)

theorem queueDownload_turn (fetched autoDownload : Bool) :
    Turn running s.board h (.queue fetched autoDownload) .idle
      (s.queueDownload fetched autoDownload).board h := by
  unfold queueDownload
  split_ifs with hflight
  · exact .inFlight fetched autoDownload hflight
  · have hflight : workInFlight s.state = false := Bool.eq_false_iff.2 hflight
    have hrepair : (s.repairPending && (fetched && s.state != .downloaded &&
        decide (s.info.version ≠ []) && s.info.installMethod == .selfInstall)) = true →
        s.info.version ≠ [] ∧ s.repairPending = true := by
      intro hwanted
      simp only [Bool.and_eq_true, decide_eq_true_eq] at hwanted
      exact ⟨hwanted.2.1.2, hwanted.1⟩
    dsimp only
    split_ifs with hwanted
    · refine Turn.queued (b := s.board) fetched autoDownload _ hflight ?_ hrepair
      rw [Bool.or_eq_true] at hwanted
      rcases hwanted with hoffered | hwanted
      · simp only [Bool.and_eq_true, beq_iff_eq] at hoffered
        exact .inl hoffered.2.1.2
      · exact .inr (hrepair hwanted)
    · rw [Bool.or_eq_true, not_or] at hwanted
      rw [Bool.eq_false_iff.2 hwanted.2]
      exact .dropped fetched autoDownload hflight

theorem beginDownload_turn :
    Turn running s.board h .beginDownload (s.beginDownload.1.elim .idle .artifact)
      s.beginDownload.2.board h := by
  unfold beginDownload
  split_ifs with hcheck
  · exact .giveWay hcheck
  · have hcheck : s.pendingCheck = false := Bool.eq_false_iff.2 hcheck
    dsimp only
    split
    · exact Turn.abandoned (b := s.board) _ hcheck rfl
    next hwanted =>
      split
      · exact Turn.abandoned (b := s.board) _ hcheck rfl
      · refine Turn.begun (b := s.board) hcheck ?_
        show s.info.available = true ∨ s.repairPending = true
        cases havailable : s.info.available with
        | true => exact .inl rfl
        | false => exact .inr (by simpa [havailable] using hwanted)

theorem failPhase_turn {φ : Phase} {phase : UpdateState} (err fallback : String)
    (hown : φ.part.own = some phase) (hpart : φ.part ≠ .checking) (hφ : φ ≠ .beginDownload) :
    Turn running s.board h φ .idle (s.failPhase phase err fallback).board h := by
  unfold failPhase
  split
  next hstate => exact .missed hown hpart hφ hstate
  next hstate => exact Turn.failed (b := s.board) hown hpart hφ (not_not.1 hstate)

theorem settleCancelledDownload_turn :
    Turn running s.board h .settleCancelled .idle s.settleCancelledDownload.board h := by
  unfold settleCancelledDownload
  split_ifs with hstate
  · exact .missed (show _ = some .downloading from rfl) nofun nofun hstate
  · exact Turn.cancelled (b := s.board) _ (not_not.1 hstate) rfl

theorem enterVerifying_turn (localPath : Text) :
    Turn running s.board h (.enterVerifying localPath)
      (if (s.enterVerifying localPath).1 then .readDownloaded else .idle)
      (s.enterVerifying localPath).2.board h := by
  unfold enterVerifying
  split
  next hstate => exact .missed (show _ = some .downloading from rfl) nofun nofun hstate
  next hstate => exact Turn.enterVerifying (b := s.board) localPath (not_not.1 hstate)

theorem stage_turn (info : UpdateInfo) (autoInstall : Bool) :
    Turn running s.board h (.stage info autoInstall) .idle (s.stage info autoInstall).board h := by
  unfold stage
  split
  next hstate => exact .missed (show _ = some .verifying from rfl) nofun nofun hstate
  next hstate =>
    split
    · exact Turn.stagedInstall (b := s.board) info autoInstall (not_not.1 hstate)
    · exact Turn.staged (b := s.board) info autoInstall (not_not.1 hstate)

end UpdateService

/-- Every step of the worker is one of these. -/
theorem Phase.turn {running : Text} {φ : Phase} {i : Instr} {next : i.Answer → Phase}
    {s u : UpdateService} {r : i.Answer} {h : History} (hmove : φ.move running = some ⟨i, next⟩)
    (hstep : s.step i r u) : Turn running s.board h φ (next r) u.board (h.note i r) := by
  cases φ with
  | idle => cases hmove
  | stopping | cancelled err =>
    cases hmove
    obtain ⟨-, rfl⟩ := hstep
    cases r <;> exact .quiet nofun rfl rfl
  | takeNextJob =>
    cases hmove
    have hjob : s.takeNextJob = (r, u) := hstep.2.symm
    have hturn : Turn running s.board h _ _ _ _ := takeNextJob_turn
    rw [hjob] at hturn
    exact hturn
  | checkConfig =>
    cases hmove
    obtain ⟨rfl, rfl⟩ := hstep
    exact .readSkip _ rfl
  | fetch cfg =>
    cases hmove
    obtain rfl : u = s := hstep
    cases r with
    | error err => exact .fetchFailed cfg err
    | ok info => exact .fetched cfg info
  | note cfg fetched =>
    cases hmove
    obtain ⟨now, rfl⟩ := hstep
    exact .note cfg fetched
  | settle cfg fetched =>
    cases fetched with
    | error err =>
      cases hmove
      exact (show u = _ from hstep) ▸ settleFailedCheck_turn cfg err
    | ok info =>
      cases hmove
      exact (show u = _ from hstep) ▸ settleCheck_turn cfg info
  | queueConfig fetched =>
    cases hmove
    obtain ⟨-, rfl⟩ := hstep
    exact .quiet nofun rfl rfl
  | queue fetched autoDownload =>
    cases hmove
    exact (show u = _ from hstep) ▸ queueDownload_turn fetched autoDownload
  | beginDownload =>
    cases hmove
    have hbegin : s.beginDownload = (r, u) := hstep.symm
    have hturn : Turn running s.board h _ _ _ _ := beginDownload_turn
    rw [hbegin] at hturn
    exact hturn
  | artifact info =>
    cases hmove
    obtain rfl : u = { s with verified := [] } := hstep
    exact Turn.loading (b := s.board) info
  | report =>
    cases hmove
    obtain rfl : u = s := hstep
    cases r <;> exact .quiet nofun rfl rfl
  | progress soFar total =>
    cases hmove
    obtain rfl : u = s.onDownloadProgress soFar total := hstep
    exact .quiet nofun rfl rfl
  | settleCancelled =>
    cases hmove
    exact (show u = _ from hstep) ▸ settleCancelledDownload_turn
  | downloadFailed err | verifyFailed err | installFailed err =>
    cases hmove
    exact (show u = _ from hstep) ▸ failPhase_turn err _ rfl nofun nofun
  | enterVerifying localPath =>
    cases hmove
    have hverify : s.enterVerifying localPath = (r, u) := hstep.symm
    have hturn : Turn running s.board h _ _ _ _ := enterVerifying_turn localPath
    rw [hverify] at hturn
    exact hturn
  | readDownloaded =>
    cases hmove
    obtain ⟨rfl, rfl⟩ := hstep
    exact .readRelease
  | verify info localPath =>
    cases hmove
    rw [show u = _ from hstep]
    cases r with
    | none => exact Turn.verified (b := s.board) info localPath
    | some err => exact .quiet nofun rfl rfl
  | stageConfig info =>
    cases hmove
    obtain ⟨rfl, rfl⟩ := hstep
    exact .stageConfig info _
  | stage info autoInstall =>
    cases hmove
    exact (show u = _ from hstep) ▸ stage_turn info autoInstall
  | beginInstall =>
    cases hmove
    obtain ⟨hr, rfl⟩ := hstep
    split at hr
    next hstate =>
      cases hr
      exact Turn.applying hstate
    next hstate =>
      cases hr
      exact .missed (show _ = some .installing from rfl) nofun nofun hstate
  | apply info localPath =>
    cases hmove
    obtain rfl : u = s := hstep
    cases r with
    | none => exact .launched info localPath
    | some err => exact .quiet nofun rfl rfl

end Satellite.Update
