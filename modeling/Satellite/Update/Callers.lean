import Satellite.Lib.Positions
import Satellite.Update.Service

/-!
# What a caller can do

The sections of the callers, said once over the part of the service that decides which
job runs next and with which release: a request is refused, queues its job and shows it
in the state, or takes a release or a staged file away.
-/

namespace Satellite.Update

open UpdateService

/-- The part of the service that decides which job runs next, and with which release and file. -/
structure Board where
  state : UpdateState
  info : UpdateInfo
  staged : InstallerIdentity
  downloadedPath : Text
  verified : List (Text × InstallerIdentity)
  pendingCheck : Bool
  pendingDownload : Bool
  pendingInstall : Bool
  repairPending : Bool
  skipVersion : Text

def UpdateService.board (s : UpdateService) : Board :=
  ⟨s.state, s.info, s.staged, s.downloadedPath, s.verified, s.pendingCheck, s.pendingDownload,
    s.pendingInstall, s.repairPending, s.config.skipVersion⟩

/-- The sections of the callers, by what they do to the board. -/
inductive Acts (b : Board) : Instr → Board → Prop
  | none {i : Instr} : Acts b i b
  | check {i : Instr} (repair : Bool) : b.pendingCheck = false → workInFlight b.state = false →
      Acts b i { b with
        state := .checking, pendingCheck := true, repairPending := b.repairPending || repair }
  | queueRepair {i : Instr} : b.pendingCheck = true ∨ b.state = .checking →
      Acts b i { b with repairPending := true }
  | offer {i : Instr} : b.state = .updateAvailable ∨ b.state = .error → b.info.available = true →
      Acts b i { b with state := .downloading, pendingDownload := true }
  | repair {i : Instr} : b.pendingCheck = false → workInFlight b.state = false →
      b.info.version ≠ [] →
      Acts b i { b with state := .downloading, pendingDownload := true, repairPending := true }
  | install {i : Instr} : b.state = .downloaded ∨ b.state = .error → b.staged.version ≠ [] →
      b.info.identity = b.staged →
      Acts b i { b with state := .installing, pendingInstall := true, repairPending := false }
  | cancel {i : Instr} (state : UpdateState) : b.pendingDownload = true →
      state = (if b.info.available then .updateAvailable else .idle) →
      Acts b i { b with state := state, pendingDownload := false, repairPending := false }
  | forget (staged : InstallerIdentity) : staged = b.staged ∨ staged = {} →
      Acts b (.forgetVersion b.info.version) { b with info := {}, state := .idle, staged := staged }
  | unstage {i : Instr} : b.info.version ≠ b.staged.version → Acts b i { b with staged := {} }
  | skip (version : Text) : Acts b (.setSkipVersion version) { b with skipVersion := version }

namespace Acts

variable {b d : Board} {i : Instr}

/-- A caller leaves the known release as it is, unless it is forgotten. -/
theorem info (h : Acts b i d) : d.info = b.info ∨ i = .forgetVersion b.info.version ∧ d.info = {} := by
  cases h <;> first | exact .inl rfl | exact .inr ⟨rfl, rfl⟩

/-- A caller leaves the staged file as it is, or none. -/
theorem staged (h : Acts b i d) : d.staged = b.staged ∨ d.staged = {} := by
  cases h with
  | forget staged hstaged => exact hstaged
  | unstage _ => exact .inr rfl
  | _ => exact .inl rfl

/-- A caller leaves the skipped version as it is, unless another is stored. -/
theorem skipVersion (h : Acts b i d) (hi : ∀ version, i ≠ .setSkipVersion version) :
    d.skipVersion = b.skipVersion := by
  cases h with
  | skip version => exact absurd rfl (hi version)
  | _ => rfl

end Acts

theorem abandoned_cases {info : UpdateInfo} {state : UpdateState}
    (h : state = if info.available then .updateAvailable else .idle) :
    state = .updateAvailable ∧ info.available = true ∨ state = .idle := by
  split at h
  next havailable => exact .inl ⟨h, havailable⟩
  · exact .inr h

namespace UpdateService

variable (s : UpdateService) {i : Instr}

theorem isStaged_iff {info : UpdateInfo} :
    s.isStaged info = true ↔ s.staged.version ≠ [] ∧ info.identity = s.staged := by
  simp [isStaged]

theorem checkQueued_iff : s.checkQueued = true ↔ s.pendingCheck = true ∨ s.state = .checking := by
  simp [checkQueued]

/-- No check is queued where none is pending and none shows. -/
theorem pendingCheck_of_checkQueued (h : ¬ s.checkQueued = true) : s.pendingCheck = false := by
  simp [checkQueued] at h
  exact h.1

theorem requestCheck_acts (userInitiated : Bool) :
    Acts s.board i (s.requestCheck userInitiated).board := by
  unfold requestCheck
  dsimp only
  split
  · split <;> exact .none
  next hfree =>
    rw [Bool.or_eq_true, not_or] at hfree
    have h := Acts.check (b := s.board) (i := i) false (s.pendingCheck_of_checkQueued hfree.1)
      (Bool.eq_false_iff.2 hfree.2)
    rw [Bool.or_false] at h
    split <;> exact h

theorem requestDownload_acts : Acts s.board i s.requestDownload.board := by
  unfold requestDownload
  split
  · exact .none
  next hstate =>
    split
    · exact .none
    next havailable =>
      split
      · exact .none
      · apply Acts.offer (b := s.board)
        · rw [not_and_or, not_not, not_not] at hstate
          exact hstate
        · simpa [board] using havailable

theorem requestRepair_acts : Acts s.board i s.requestRepair.board := by
  unfold requestRepair
  split
  · exact .none
  · split
    next hqueued => exact .queueRepair (s.checkQueued_iff.1 hqueued)
    next hqueued =>
      have hpending := s.pendingCheck_of_checkQueued hqueued
      split
      · exact .none
      next hfree =>
        rw [Bool.or_eq_true, not_or] at hfree
        have hflight : workInFlight s.state = false := Bool.eq_false_iff.2 hfree.1
        dsimp only
        split
        · have h := Acts.check (b := s.board) (i := i) true hpending hflight
          rw [Bool.or_true] at h
          exact h
        next hversion => exact Acts.repair (b := s.board) hpending hflight hversion

theorem requestInstall_acts : Acts s.board i s.requestInstall.board := by
  unfold requestInstall
  dsimp only
  split
  · exact .none
  next hstate =>
    split
    · exact .none
    next hstaged =>
      obtain ⟨hversion, hsame⟩ := s.isStaged_iff.1 (by simpa using hstaged)
      refine Acts.install (b := s.board) ?_ hversion hsame
      by_cases hd : s.state = .downloaded
      · exact .inl hd
      · by_cases he : s.state = .error
        · exact .inr he
        · simp [hd, he] at hstate

theorem cancelInFlight_acts : Acts s.board i s.cancelInFlight.board := by
  unfold cancelInFlight
  dsimp only
  split_ifs with hpending
  · exact Acts.cancel (b := s.board) _ hpending rfl
  · exact .none

theorem forgetVersion_acts (version : Text) :
    Acts s.board (.forgetVersion version) (s.forgetVersion version).board := by
  unfold forgetVersion
  dsimp only
  split
  next hknown =>
    subst hknown
    split
    · exact .forget _ (.inr rfl)
    · exact .forget _ (.inl rfl)
  next hinfo =>
    split_ifs with hstaged
    · refine .unstage fun hsame => hinfo ?_
      exact hsame.trans hstaged
    · exact .none

end UpdateService

/-- The instructions only callers issue. -/
def Instr.byCaller : Instr → Bool
  | .requestCheck _ | .requestDownload | .requestRepair | .requestInstall | .retryStep
  | .cancelInFlight | .setSkipVersion _ | .forgetVersion _ | .dismissOffer | .setLastSeenVersion _
  | .applyPreferences .. | .checkDue | .stop => true
  | _ => false

theorem acts_of_step {s u : UpdateService} {i : Instr} {r : i.Answer} (hi : i.byCaller = true)
    (h : s.step i r u) : Acts s.board i u.board := by
  cases i <;> simp only [Instr.byCaller, Bool.false_eq_true] at hi
  case requestCheck userInitiated => exact h ▸ s.requestCheck_acts userInitiated
  case requestDownload => exact h ▸ s.requestDownload_acts
  case requestRepair => exact h ▸ s.requestRepair_acts
  case requestInstall => exact h ▸ s.requestInstall_acts
  case retryStep => exact h.2 ▸ .none
  case cancelInFlight => exact h ▸ s.cancelInFlight_acts
  case setSkipVersion version => exact h ▸ .skip version
  case forgetVersion version => exact h ▸ s.forgetVersion_acts version
  case dismissOffer =>
    have hu : u = s.dismissOffer.2 := congrArg Prod.snd h
    rw [hu, dismissOffer]
    split <;> exact .none
  case setLastSeenVersion version => exact h ▸ .none
  case applyPreferences channel autoCheck autoDownload autoInstall =>
    have hu : u = (s.applyPreferences channel autoCheck autoDownload autoInstall).2 :=
      congrArg Prod.snd h
    exact hu ▸ .none
  case checkDue => exact h.2 ▸ .none
  case stop => exact h ▸ .none

/-- Every task of a caller issues only such instructions. -/
theorem Request.task_only (req : Request) : req.task.Only (fun i => i.byCaller = true) := by
  have hone : ∀ i : Instr, i.byCaller = true →
      (run i).Only (fun i => i.byCaller = true) := fun i hi => ⟨hi, fun _ => trivial⟩
  cases req with
  | check userInitiated | download | repair | install | cancel | stop => exact hone _ rfl
  | retry =>
    refine (hone .retryStep rfl).bind fun step => ?_
    cases step with
    | none => trivial
    | download | repair | install | check => exact hone _ rfl
  | skipVersion version =>
    exact (hone (.setSkipVersion version) rfl).bind fun _ => hone (.forgetVersion version) rfl
  | dismiss =>
    refine (hone .dismissOffer rfl).bind fun dismissed => ?_
    cases dismissed with
    | none => trivial
    | some version => exact hone _ rfl
  | updatePreferences channel autoCheck autoDownload autoInstall =>
    refine (hone (.applyPreferences channel autoCheck autoDownload autoInstall) rfl).bind
      fun channelChanged => ?_
    cases channelChanged with
    | false => trivial
    | true => exact hone _ rfl
  | timer =>
    refine (hone .checkDue rfl).bind fun shouldCheck => ?_
    cases shouldCheck with
    | false => trivial
    | true => exact hone _ rfl

end Satellite.Update
