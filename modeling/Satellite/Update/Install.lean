import Satellite.Update.Turns

/-!
# Only what was verified is installed

The staged record and the `Installing` state are each tied to a verification that no
download has followed. The worker clears the staged record before it starts a download,
no caller brings it back, and what the worker verifies is the file and the release it
then stages.
-/

namespace Satellite.Update

namespace Board

/-- The downloaded file was verified as `id`, and no download has started since. -/
def Vouched (b : Board) (id : InstallerIdentity) : Prop := (b.downloadedPath, id) ∈ b.verified

/-- Nothing is staged and nothing is being installed: a download may start. -/
def Cleared (b : Board) : Prop := b.staged.version = [] ∧ b.state ≠ .installing

/-- The release is the known one, as long as a verification shows. -/
def Verifies (b : Board) (info : UpdateInfo) : Prop := b.state = .verifying → b.info = info

end Board

/-- What was verified, by the position of the worker. -/
structure Stands (φ : Phase) (b : Board) : Prop where
  staged : b.staged.version ≠ [] → b.Vouched b.staged
  installing : b.state = .installing → b.Vouched b.info.identity
  cleared : φ.part = .loading → φ ≠ .beginDownload → b.Cleared
  verify : ∀ info localPath, φ = .verify info localPath →
    b.downloadedPath = localPath ∧ b.Verifies info
  stage : ∀ info autoInstall, φ = .stageConfig info ∨ φ = .stage info autoInstall →
    b.Vouched info.identity ∧ b.Verifies info
  apply : ∀ info localPath, φ = .apply info localPath → (localPath, info.identity) ∈ b.verified

namespace Stands

variable {running : Text} {φ ψ : Phase} {b d : Board}

/-- A step that installs nothing, whatever it does to the known release. -/
theorem settle (hs : Stands φ b) (hstate : d.state ≠ .installing)
    (hverifying : d.state = .verifying → b.state = .verifying ∧ d.info = b.info)
    (hstaged : d.staged = b.staged ∨ d.staged = {}) (hpath : d.downloadedPath = b.downloadedPath)
    (hverified : d.verified = b.verified) : Stands φ d := by
  have hvouched : ∀ {id}, b.Vouched id → d.Vouched id := by
    intro id hid
    rw [Board.Vouched, hpath, hverified]
    exact hid
  have hverifies : ∀ {info}, b.Verifies info → d.Verifies info := by
    intro info hinfo hd
    obtain ⟨hb, heq⟩ := hverifying hd
    exact heq.trans (hinfo hb)
  constructor
  · intro hne
    rcases hstaged with heq | heq
    · rw [heq] at hne ⊢
      exact hvouched (hs.staged hne)
    · rw [heq] at hne
      exact absurd rfl hne
  · exact fun hi => absurd hi hstate
  · intro hpart hφ
    refine ⟨?_, hstate⟩
    rcases hstaged with heq | heq
    · exact heq ▸ (hs.cleared hpart hφ).1
    · exact heq ▸ rfl
  · intro info localPath hφ
    exact ⟨hpath.trans (hs.verify info localPath hφ).1, hverifies (hs.verify info localPath hφ).2⟩
  · intro info autoInstall hφ
    exact ⟨hvouched (hs.stage info autoInstall hφ).1, hverifies (hs.stage info autoInstall hφ).2⟩
  · exact fun info localPath hφ => hverified ▸ hs.apply info localPath hφ

theorem acts (hs : Stands φ b) {i : Instr} (ha : Acts b i d) : Stands φ d := by
  cases ha with
  | none => exact hs
  | check repair _ _ | offer _ _ | repair _ _ _ => exact hs.settle nofun nofun (.inl rfl) rfl rfl
  | queueRepair _ | skip _ => exact { hs with }
  | install _ hne hsame =>
    refine { hs with
      installing := fun _ => hsame ▸ hs.staged hne, cleared := ?_, verify := ?_, stage := ?_ }
    · exact fun hpart hφ => absurd (hs.cleared hpart hφ).1 hne
    · exact fun info localPath hφ => ⟨(hs.verify info localPath hφ).1, nofun⟩
    · exact fun info autoInstall hφ => ⟨(hs.stage info autoInstall hφ).1, nofun⟩
  | cancel state _ hstate =>
    rcases abandoned_cases hstate with ⟨rfl, -⟩ | rfl <;>
      exact hs.settle nofun nofun (.inl rfl) rfl rfl
  | forget staged hstaged => exact hs.settle nofun nofun hstaged rfl rfl
  | unstage _ =>
    exact { hs with
      staged := fun hne => absurd rfl hne
      cleared := fun hpart hφ => ⟨rfl, (hs.cleared hpart hφ).2⟩ }

/-- At a position where the worker holds nothing and downloads nothing. -/
theorem leave (hs : Stands φ b) (hψ : ψ.plain = true ∧ ψ.part ≠ .loading) : Stands ψ b where
  staged := hs.staged
  installing := hs.installing
  cleared hpart := absurd hpart hψ.2
  verify info localPath heq := by
    subst heq
    cases hψ.1
  stage info autoInstall heq := by
    rcases heq with rfl | rfl <;> cases hψ.1
  apply info localPath heq := by
    subst heq
    cases hψ.1

/-- The worker settles on something else than an install. -/
theorem outcome (hs : Stands φ b) (hψ : ψ.plain = true ∧ ψ.part ≠ .loading)
    (hstate : workInFlight d.state = false ∨ d.state = .checking ∨ d.state = .downloading)
    (hpath : d.downloadedPath = b.downloadedPath := by rfl)
    (hverified : d.verified = b.verified := by rfl)
    (hstaged : d.staged = b.staged := by rfl) : Stands ψ d := by
  have hne : d.state ≠ .installing ∧ d.state ≠ .verifying := by
    rcases hstate with h | h | h
    · constructor <;> intro heq <;> rw [heq] at h <;> cases h
    · rw [h]
      exact ⟨nofun, nofun⟩
    · rw [h]
      exact ⟨nofun, nofun⟩
  exact (hs.leave hψ).settle hne.1 (fun hv => absurd hv hne.2) (.inl hstaged) hpath hverified

/-- Each step of the worker establishes what its next position stands on. -/
theorem turn {h h' : History} (hs : Stands φ b) (ht : Turn running b h φ ψ d h') : Stands ψ d := by
  cases ht with
  | quiet hφ hpart hplain =>
    by_cases hloading : ψ.part = .loading
    · have hclear := hs.cleared (hpart ▸ hloading) hφ
      refine ⟨hs.staged, hs.installing, fun _ _ => hclear, ?_, ?_, ?_⟩
      · rintro info localPath rfl
        cases hplain
      · rintro info autoInstall (rfl | rfl) <;> cases hplain
      · rintro info localPath rfl
        cases hplain
    · exact hs.leave ⟨hplain, hloading⟩
  | readSkip cfg _ | fetched cfg info | fetchFailed cfg err | note cfg fetched =>
    exact ⟨hs.staged, hs.installing, nofun, nofun, nofun, nofun⟩
  | readRelease =>
    refine ⟨hs.staged, hs.installing, nofun, ?_, nofun, nofun⟩
    rintro info localPath ⟨⟩
    exact ⟨rfl, fun _ => rfl⟩
  | stageConfig info autoInstall =>
    refine ⟨hs.staged, hs.installing, nofun, nofun, ?_, nofun⟩
    rintro info' autoInstall' (⟨⟨⟩⟩ | ⟨⟨⟩⟩)
    exact hs.stage info autoInstall (.inl rfl)
  | applying hstate =>
    refine ⟨hs.staged, hs.installing, nofun, nofun, nofun, ?_⟩
    rintro info localPath ⟨⟩
    exact hs.installing hstate
  | loading info =>
    have hclear := hs.cleared rfl nofun
    exact ⟨fun hne => absurd hclear.1 hne, fun hi => absurd hi hclear.2, fun _ _ => hclear, nofun,
      nofun, nofun⟩
  | verified info localPath =>
    obtain ⟨hpath, hinfo⟩ := hs.verify info localPath rfl
    refine ⟨fun hne => .tail _ (hs.staged hne), fun hi => .tail _ (hs.installing hi), nofun, nofun,
      ?_, nofun⟩
    rintro info' autoInstall (⟨⟨⟩⟩ | ⟨⟨⟩⟩)
    refine ⟨?_, hinfo⟩
    rw [Board.Vouched, show b.downloadedPath = localPath from hpath]
    exact List.mem_cons_self
  | late cfg fetched ok _ | inFlight fetched autoDownload _ | giveWay _ | missed _ _ _ _ =>
    exact hs.leave ⟨rfl, nofun⟩
  | takeInstall _ | dropped fetched autoDownload _ | launched info localPath =>
    exact { hs.leave (ψ := .idle) ⟨rfl, nofun⟩ with
      cleared := nofun, verify := nofun, stage := nofun, apply := nofun }
  | takeDownload _ _ =>
    exact ⟨hs.staged, hs.installing, fun _ hφ => absurd rfl hφ, nofun, nofun, nofun⟩
  | takeCheck _ _ =>
    exact { hs.outcome (ψ := .idle) ⟨rfl, nofun⟩ (.inr (.inl rfl)) with
      cleared := nofun, verify := nofun, stage := nofun, apply := nofun }
  | settled cfg info state _ _ hstate =>
    refine hs.outcome ⟨rfl, nofun⟩ (.inl ?_)
    rcases hstate with rfl | ⟨rfl, -⟩
    · exact checkedRelease_flight running cfg.skipVersion info
    · rfl
  | settledFailed cfg err state _ _ hstate =>
    refine hs.outcome ⟨rfl, nofun⟩ (.inl ?_)
    rcases hstate with rfl | ⟨rfl, -⟩ | ⟨rfl, -⟩ <;> rfl
  | queued fetched autoDownload repair _ _ _ => exact hs.outcome ⟨rfl, nofun⟩ (.inr (.inr rfl))
  | abandoned state _ hstate | cancelled state _ hstate =>
    rcases abandoned_cases hstate with ⟨rfl, -⟩ | rfl <;> exact hs.outcome ⟨rfl, nofun⟩ (.inl rfl)
  | begun _ _ =>
    exact ⟨fun hne => absurd rfl hne, nofun, fun _ _ => ⟨rfl, nofun⟩, nofun, nofun, nofun⟩
  | enterVerifying localPath _ =>
    have hclear := hs.cleared rfl nofun
    exact ⟨fun hne => absurd hclear.1 hne, nofun, nofun, nofun, nofun, nofun⟩
  | staged info autoInstall _ =>
    obtain ⟨hvouched, -⟩ := hs.stage info autoInstall (.inr rfl)
    exact ⟨fun _ => hvouched, nofun, nofun, nofun, nofun, nofun⟩
  | stagedInstall info autoInstall hstate =>
    obtain ⟨hvouched, hinfo⟩ := hs.stage info autoInstall (.inr rfl)
    refine ⟨fun _ => hvouched, fun _ => ?_, nofun, nofun, nofun, nofun⟩
    rw [Board.Vouched, show b.info = info from hinfo hstate]
    exact hvouched
  | failed _ _ _ _ => exact hs.outcome ⟨rfl, nofun⟩ (.inl rfl)

end Stands

theorem stands (running : Text) :
    System.Outline (updates running) .worker (worker running) (fun i => i.byCaller = true)
      (fun φ s => Stands φ s.board) where
  init s hs := by
    obtain ⟨config, rfl⟩ := hs
    exact ⟨.idle, rfl, fun hne => absurd rfl hne, nofun, nofun, nofun, nofun, nofun⟩
  start φ s p hmove hI hp := by
    obtain rfl := Phase.eq_idle_of_move hmove
    exact ⟨.stopping, hp.symm, hI.leave ⟨rfl, nofun⟩⟩
  move φ i next s r u hmove hI hstep := hI.turn (Phase.turn (h := {}) hmove hstep)
  others := callers_only
  keep φ t i s r u _ hi hI hstep := hI.acts (acts_of_step hi hstep)

theorem Phase.eq_apply {running : Text} {φ : Phase} {localPath : Text} {info : UpdateInfo}
    {next : Option String → Phase}
    (hmove : φ.move running = some ⟨.applyUpdate localPath info, next⟩) :
    φ = .apply info localPath := by
  cases φ with
  | apply info localPath =>
    cases hmove
    rfl
  | settle cfg fetched => cases fetched <;> cases hmove
  | _ => cases hmove

/-- Whenever the worker is about to call `applyUpdate`, the same file was verified for the same
version, asset and digest, and no download has started since. -/
theorem applied_update_verified {running : Text}
    {c : System.Config Thread Instr Instr.Answer UpdateService} (hc : (updates running).Reach c)
    {t : Thread} {localPath : Text} {info : UpdateInfo} {k : Option String → Task Unit}
    (hask : (c.prog t).view = .ask (.applyUpdate localPath info) k) :
    (localPath, info.identity) ∈ c.shared.verified := by
  obtain ⟨φ, next, hmove, hstands⟩ := (stands running).ask hc hask nofun
  exact hstands.apply info localPath (Phase.eq_apply hmove)

/-- A check with automatic download and install, up to the call of `applyUpdate`. -/
theorem applied_update_verified_run :
    ∃ c info k, (updates ['1']).Reach c ∧
      (c.prog .worker).view = .ask (.applyUpdate ['f'] info) k ∧ info.version = ['2'] ∧
      (['f'], info.identity) ∈ c.shared.verified := by
  let cfg : Config := { autoDownload := true, autoInstall := true }
  let info : UpdateInfo := { reported ['2'] with available := true }
  have h : (updates ['1']).Reach ⟨{ config := cfg }, fun _ => .ret ()⟩ := .init ⟨cfg, rfl⟩
  have h := reach_call h 0 (.check true)
  have h := reach_act h (.caller 0) (.requestCheck true) ()
  have h := reach_round h ['1']
  have h := reach_act h .worker .stopping false
  have h := reach_act h .worker .takeNextJob .check
  have h := reach_act h .worker .readConfig cfg
  have h := reach_act h .worker (.fetchLatestRelease _) (.ok (reported ['2']))
  have h := reach_act h .worker .noteCheck ()
  have h := reach_act h .worker (.settleCheck .updateAvailable info) ()
  have h := reach_act h .worker .readConfig cfg
  have h := reach_act h .worker (.queueDownload true true) ()
  have h := reach_round h ['1']
  have h := reach_act h .worker .stopping false
  have h := reach_act h .worker .takeNextJob .download
  have h := reach_act h .worker .beginDownload (some info)
  have h := reach_act h .worker (.downloadArtifact info) ()
  have h := reach_act h .worker .downloadReport (.done ['f'])
  have h := reach_act h .worker (.enterVerifying ['f']) true
  have h := reach_act h .worker .readDownloaded (info, ['f'])
  have h := reach_act h .worker (.verifyArtifact ['f'] info) none
  have h := reach_act h .worker .readConfig cfg
  have h := reach_act h .worker (.stage info true) ()
  have h := reach_round h ['1']
  have h := reach_act h .worker .stopping false
  have h := reach_act h .worker .takeNextJob .install
  have h := reach_act h .worker .beginInstall (some (info, ['f']))
  exact ⟨_, info, _, h, rfl, rfl, applied_update_verified h (t := .worker) rfl⟩

end Satellite.Update
