import Satellite.Update.Precedence
import Satellite.Update.Releases

/-!
# A skipped version

A check reads which version is skipped before it asks the port and settles afterwards. A
version skipped in between is offered all the same, and downloaded if downloads are
automatic. Where no skip is stored while a check runs or between the halves of another, and
no repair of the skipped version begins, that version stays in the settings, is not staged
and is not offered again.
-/

namespace Satellite.Update

/-! ## A version is not newer than itself -/

theorem compareSemver_self (a : Text) : compareSemver a a = .eq := by
  rw [compareSemver_eq]
  exact Std.ReflCmp.compare_self

/-! ## What the worker holds -/

/-- The settings a check has read. -/
def Phase.setting : Phase → Option Config
  | .fetch cfg | .note cfg _ | .settle cfg _ => some cfg
  | _ => none

/-- The release a verification is for. -/
def Phase.release : Phase → Option UpdateInfo
  | .verify info _ | .stageConfig info | .stage info _ => some info
  | _ => none

theorem Phase.holds_nothing {φ : Phase} (h : φ.plain = true) : φ.setting = none ∧ φ.release = none := by
  cases φ <;> first | exact ⟨rfl, rfl⟩ | cases h

/-- What is issued where skips hold: no skip is stored while a check runs, none of another version
between the two halves of a skip, and no repair of the skipped version begins. -/
def Honoured : Instr → UpdateService × History → Prop
  | .setSkipVersion version, (s, _) =>
    version ≠ s.config.skipVersion → s.state = .checking → s.pendingCheck = true
  | .forgetVersion version, (_, h) => h.stored = some version
  | .beginDownload, (s, h) =>
    s.repairPending = true → s.info.version ≠ [] → h.skipped ≠ some s.info.version
  | _, _ => True

/-- The skip of the version has returned; an empty version ends the skips. -/
def History.Skipped (h : History) (version : Text) : Prop := h.skipped = some version ∧ version ≠ []

/-- What the worker holds, the board and the record say about the skipped version. -/
structure Skips (h : History) (φ : Phase) (b : Board) : Prop where
  offered : b.state = .updateAvailable → b.info.available = true
  downloaded : b.state = .downloaded → b.info.identity = b.staged
  skipped : ∀ version, h.Skipped version → b.info.version = version → b.info.available = false
  stored : ∀ version, h.skipped = some version → h.stored = some version
  kept : ∀ version, h.stored = some version → b.skipVersion = version
  unstaged : ∀ version, h.Skipped version → b.staged.version ≠ version
  setting : ∀ cfg, φ.setting = some cfg → b.state = .checking → b.pendingCheck = false →
    cfg.skipVersion = b.skipVersion
  release : ∀ info, φ.release = some info → b.state = .verifying → b.info = info
  loading : φ.job = some .download → φ ≠ .beginDownload → ∀ version, h.Skipped version →
    b.info.version ≠ version

namespace Skips

variable {running : Text} {h h' : History} {φ ψ : Phase} {b d : Board}

/-- A caller's step: what counts as skipped did so before, or has just been taken away. -/
theorem acts (hk : Skips h φ b) {i : Instr} (ha : Acts b i d)
    (hskip : ∀ version, h'.Skipped version → h.Skipped version ∨
      d.info.version ≠ version ∧ d.staged.version ≠ version)
    (hstored : ∀ version, h'.skipped = some version → h'.stored = some version)
    (hkept : ∀ version, h'.stored = some version → d.skipVersion = version)
    (hsettled : d.skipVersion ≠ b.skipVersion → b.state = .checking → b.pendingCheck = true) :
    Skips h' φ d := by
  have hsetting : ∀ cfg, φ.setting = some cfg → b.state = .checking → b.pendingCheck = false →
      cfg.skipVersion = d.skipVersion := by
    intro cfg hcfg hs hp
    rw [hk.setting cfg hcfg hs hp]
    by_contra hne
    exact Bool.false_ne_true (hp.symm.trans (hsettled (Ne.symm hne) hs))
  have hskipped : ∀ version, h'.Skipped version → d.info.version = version →
      d.info.available = false := by
    intro version hv hsame
    rcases ha.info with hinfo | ⟨-, hinfo⟩
    · rcases hskip version hv with hbefore | ⟨hne, -⟩
      · rw [hinfo] at hsame ⊢
        exact hk.skipped version hbefore hsame
      · exact absurd hsame hne
    · rw [hinfo]
  have hunstaged : ∀ version, h'.Skipped version → d.staged.version ≠ version := by
    intro version hv
    rcases hskip version hv with hbefore | ⟨-, hne⟩
    · rcases ha.staged with hstaged | hstaged
      · exact hstaged ▸ hk.unstaged version hbefore
      · exact hstaged ▸ hv.2.symm
    · exact hne
  have hloading : φ.job = some .download → φ ≠ .beginDownload → ∀ version, h'.Skipped version →
      d.info.version ≠ version := by
    intro hjob hφ version hv
    rcases hskip version hv with hbefore | ⟨hne, -⟩
    · rcases ha.info with hinfo | ⟨-, hinfo⟩
      · exact hinfo ▸ hk.loading hjob hφ version hbefore
      · exact hinfo ▸ hv.2.symm
    · exact hne
  cases ha with
  | none | queueRepair _ | skip _ =>
    exact ⟨hk.offered, hk.downloaded, hskipped, hstored, hkept, hunstaged, hsetting, hk.release,
      hloading⟩
  | unstage hne =>
    refine ⟨hk.offered, fun hs => ?_, hskipped, hstored, hkept, hunstaged, hsetting, hk.release,
      hloading⟩
    exact absurd (congrArg InstallerIdentity.version (hk.downloaded hs)) hne
  | check repair _ _ | offer _ _ | repair _ _ _ | install _ _ _ | forget staged _ =>
    exact ⟨nofun, nofun, hskipped, hstored, hkept, hunstaged, nofun, nofun, hloading⟩
  | cancel state _ hstate =>
    rcases abandoned_cases hstate with ⟨rfl, havailable⟩ | rfl
    · exact ⟨fun _ => havailable, nofun, hskipped, hstored, hkept, hunstaged, nofun, nofun, hloading⟩
    · exact ⟨nofun, nofun, hskipped, hstored, hkept, hunstaged, nofun, nofun, hloading⟩

/-- At a position where the worker holds nothing and downloads nothing. -/
theorem plain (hk : Skips h φ b) (hψ : ψ.plain = true ∧ ψ.job ≠ some .download)
    (hoffered : d.state = .updateAvailable → d.info.available = true)
    (hdownloaded : d.state = .downloaded → d.info.identity = d.staged)
    (hskipped : ∀ version, h.Skipped version → d.info.version = version → d.info.available = false)
    (hunstaged : ∀ version, h.Skipped version → d.staged.version ≠ version)
    (hskip : d.skipVersion = b.skipVersion := by rfl) : Skips h ψ d where
  offered := hoffered
  downloaded := hdownloaded
  skipped := hskipped
  stored := hk.stored
  kept version hv := hskip.trans (hk.kept version hv)
  unstaged := hunstaged
  setting _ hcfg := absurd ((Phase.holds_nothing hψ.1).1.symm.trans hcfg) nofun
  release _ hinfo := absurd ((Phase.holds_nothing hψ.1).2.symm.trans hinfo) nofun
  loading hjob := absurd hjob hψ.2

theorem same (hk : Skips h φ b) (hψ : ψ.plain = true ∧ ψ.job ≠ some .download) : Skips h ψ b :=
  hk.plain hψ hk.offered hk.downloaded hk.skipped hk.unstaged

/-- A step of the worker that begins no repair of the skipped version. -/
theorem turn (hk : Skips h φ b) (ht : Turn running b h φ ψ d h')
    (hrepair : φ = .beginDownload → b.repairPending = true → b.info.version ≠ [] →
      h.skipped ≠ some b.info.version) : Skips h' ψ d := by
  cases ht with
  | quiet hφ hpart hplain =>
    have hjob : ψ.job = φ.job := by rw [ψ.job_eq, φ.job_eq, hpart]
    refine { hk with setting := fun _ hcfg => ?_, release := fun _ hinfo => ?_, loading := ?_ }
    · exact absurd ((Phase.holds_nothing hplain).1.symm.trans hcfg) nofun
    · exact absurd ((Phase.holds_nothing hplain).2.symm.trans hinfo) nofun
    · exact fun hψ _ => hk.loading (hjob ▸ hψ) hφ
  | readSkip cfg hcfg =>
    refine { hk with setting := ?_, release := nofun, loading := nofun }
    rintro cfg' ⟨⟩ _ _
    exact hcfg
  | fetched cfg info | fetchFailed cfg err | note cfg fetched =>
    refine { hk with setting := ?_, release := nofun, loading := nofun }
    rintro cfg' ⟨⟩
    exact hk.setting cfg rfl
  | readRelease =>
    refine { hk with setting := nofun, release := ?_, loading := fun _ _ => hk.loading rfl nofun }
    rintro info ⟨⟩ _
    rfl
  | stageConfig info autoInstall | verified info localPath =>
    refine { hk with setting := nofun, release := ?_, loading := fun _ _ => hk.loading rfl nofun }
    rintro info' ⟨⟩
    exact hk.release info rfl
  | late cfg fetched ok _ | inFlight fetched autoDownload _ | giveWay _ | missed _ _ _ _ =>
    exact hk.same ⟨rfl, nofun⟩
  | loading info =>
    exact { hk with setting := nofun, release := nofun, loading := fun _ _ => hk.loading rfl nofun }
  | applying _ | takeInstall _ | dropped fetched autoDownload _ | launched info localPath =>
    exact { hk with setting := nofun, release := nofun, loading := nofun }
  | takeDownload _ _ =>
    exact { hk with setting := nofun, release := nofun, loading := fun _ hφ => absurd rfl hφ }
  | takeCheck _ _ =>
    exact { hk with
      offered := nofun, downloaded := nofun, setting := nofun, release := nofun, loading := nofun }
  | settled cfg info state hs hp hstate =>
    obtain ⟨available, heq, -, hskip, hoffered⟩ := checkedRelease_eq running cfg.skipVersion info
    refine hk.plain ⟨rfl, nofun⟩ ?_ ?_ ?_ hk.unstaged
    · rintro rfl
      rw [heq]
      exact hoffered (hstate.resolve_right nofun).symm
    · rintro rfl
      rcases hstate with hdown | ⟨-, -, hidentity⟩
      · rcases checkedRelease_state running cfg.skipVersion info with hup | hoffer
        · cases hdown.trans hup
        · cases hdown.trans hoffer
      · exact hidentity
    · -- the check has read the version that is skipped now
      intro version hv
      rw [heq]
      intro hsame
      have hread : cfg.skipVersion = version :=
        (hk.setting cfg rfl hs hp).trans (hk.kept version (hk.stored version hv.1))
      rw [Bool.eq_false_iff]
      intro ha
      have hgt := hskip ha (hread ▸ hv.2)
      rw [hread, show info.version = version from hsame, compareSemver_self] at hgt
      cases hgt
  | settledFailed cfg err state _ _ hstate =>
    rcases hstate with rfl | ⟨rfl, havailable⟩ | ⟨rfl, -, hidentity⟩
    · exact hk.plain ⟨rfl, nofun⟩ nofun nofun hk.skipped hk.unstaged
    · exact hk.plain ⟨rfl, nofun⟩ (fun _ => havailable) nofun hk.skipped hk.unstaged
    · exact hk.plain ⟨rfl, nofun⟩ nofun (fun _ => hidentity) hk.skipped hk.unstaged
  | queued fetched autoDownload repair _ _ _ | failed _ _ _ _ =>
    exact hk.plain ⟨rfl, nofun⟩ nofun nofun hk.skipped hk.unstaged
  | abandoned state _ hstate | cancelled state _ hstate =>
    rcases abandoned_cases hstate with ⟨rfl, havailable⟩ | rfl
    · exact hk.plain ⟨rfl, nofun⟩ (fun _ => havailable) nofun hk.skipped hk.unstaged
    · exact hk.plain ⟨rfl, nofun⟩ nofun nofun hk.skipped hk.unstaged
  | begun _ hwanted =>
    refine { hk with
      offered := nofun, downloaded := nofun, unstaged := fun _ hv => hv.2.symm, setting := nofun
      release := nofun, loading := ?_ }
    -- the skipped version is not offered, so this would be a repair of it
    rintro - - version hv hsame
    rcases hwanted with havailable | hr
    · exact Bool.false_ne_true ((hk.skipped version hv hsame).symm.trans havailable)
    · exact hrepair rfl hr (hsame ▸ hv.2) (hsame ▸ hv.1)
  | enterVerifying localPath _ =>
    exact { hk with
      offered := nofun, downloaded := nofun, setting := nofun, release := nofun
      loading := fun _ _ => hk.loading rfl nofun }
  | staged info autoInstall hs =>
    have hinfo := hk.release info rfl hs
    refine hk.plain ⟨rfl, nofun⟩ nofun (fun _ => ?_) hk.skipped ?_
    · rw [← hinfo]
    · rw [← hinfo]
      exact hk.loading rfl nofun
  | stagedInstall info autoInstall hs =>
    refine hk.plain ⟨rfl, nofun⟩ nofun nofun hk.skipped ?_
    rw [← hk.release info rfl hs]
    exact hk.loading rfl nofun

end Skips

/-! ## The whole service -/

/-- Once a version is forgotten it is neither known nor staged. -/
theorem UpdateService.forgetVersion_ne (s : UpdateService) {version : Text} (hne : version ≠ []) :
    (s.forgetVersion version).info.version ≠ version ∧
      (s.forgetVersion version).staged.version ≠ version := by
  unfold forgetVersion
  dsimp only
  split
  · split
    · exact ⟨hne.symm, hne.symm⟩
    next hstaged => exact ⟨hne.symm, hstaged⟩
  next hinfo =>
    split
    · exact ⟨hinfo, hne.symm⟩
    next hstaged => exact ⟨hinfo, hstaged⟩

/-- A caller's instruction, issued where skips hold. -/
theorem Skips.caller {s u : UpdateService} {h : History} {φ : Phase} {i : Instr} {r : i.Answer}
    (hk : Skips h φ s.board) (hi : i.byCaller = true) (hstep : s.step i r u)
    (hG : Honoured i (s, h)) : Skips (h.note i r) φ u.board := by
  have ha := acts_of_step hi hstep
  by_cases hset : ∃ version, i = .setSkipVersion version
  · obtain ⟨version, rfl⟩ := hset
    subst hstep
    have hbefore : ∀ skipped, (h.note (.setSkipVersion version) r).skipped = some skipped →
        h.skipped = some skipped ∧ version = skipped := by
      intro skipped hv
      have hv : (if h.skipped = some version then h.skipped else none) = some skipped := hv
      split at hv
      next hsame => exact ⟨hv, Option.some.inj (hsame.symm.trans hv)⟩
      · cases hv
    refine hk.acts ha (fun skipped hv => .inl ⟨(hbefore skipped hv.1).1, hv.2⟩) ?_ ?_ hG
    · exact fun skipped hv => congrArg some (hbefore skipped hv).2
    · exact fun stored hv => Option.some.inj hv
  · have hsame : u.config.skipVersion = s.config.skipVersion :=
      ha.skipVersion fun version heq => hset ⟨version, heq⟩
    have hsettled : u.config.skipVersion ≠ s.config.skipVersion → s.state = .checking →
        s.pendingCheck = true := fun hne => absurd hsame hne
    by_cases hforget : ∃ version, i = .forgetVersion version
    · obtain ⟨version, rfl⟩ := hforget
      subst hstep
      refine hk.acts ha ?_ ?_ (fun stored hv => hsame.trans (hk.kept stored hv)) hsettled
      · rintro _ ⟨⟨⟩, hne⟩
        exact .inr (s.forgetVersion_ne hne)
      · rintro _ ⟨⟩
        exact hG
    · have hnote : h.note i r = h := by
        cases i <;> first | rfl | cases hi
        case setSkipVersion version => exact absurd ⟨version, rfl⟩ hset
        case forgetVersion version => exact absurd ⟨version, rfl⟩ hforget
      rw [hnote]
      exact hk.acts ha (fun _ => .inl) hk.stored (fun v hv => hsame.trans (hk.kept v hv)) hsettled

theorem skips (running : Text) :
    System.Outline ((watched running).allow Honoured) .worker (worker running)
      (fun i => i.byCaller = true) (fun φ s => Skips s.2 φ s.1.board) where
  init s hs := by
    obtain ⟨s, h⟩ := s
    obtain ⟨⟨config, rfl⟩, rfl⟩ := hs
    exact ⟨.idle, rfl, nofun, nofun, nofun, nofun, nofun, nofun, nofun, nofun, nofun⟩
  start φ s p hmove hI hp := by
    obtain rfl := Phase.eq_idle_of_move hmove
    exact ⟨.stopping, hp.symm, hI.same ⟨rfl, nofun⟩⟩
  move φ i next s r u hmove hI hstep := by
    obtain ⟨⟨hact, hnote⟩, hG⟩ := hstep
    rw [hnote]
    refine hI.turn (Phase.turn hmove hact) ?_
    rintro rfl
    cases hmove
    exact hG
  others := (steered running).others
  keep φ t i s r u _ hi hI hstep := hstep.1.2 ▸ hI.caller hi hstep.1.1 hstep.2

/-- Downloads are queued for an offered release, or for a repair. -/
theorem UpdateService.queueDownload_pending {s : UpdateService} {fetched autoDownload : Bool}
    (hoffered : s.state ≠ .updateAvailable) (hrepair : s.repairPending = false) :
    (s.queueDownload fetched autoDownload).pendingDownload = s.pendingDownload := by
  unfold queueDownload
  split
  · rfl
  · simp [hoffered, hrepair]

/-- In every run in which no skip is stored while a check runs or between the halves of another,
and no repair of the skipped version begins, a version whose skip has returned is neither offered
nor downloaded, and no download of it is queued but for a repair. -/
theorem skip_sticks {running : Text}
    {c : System.Config Thread Instr Instr.Answer (UpdateService × History)}
    (hc : ((watched running).allow Honoured).Reach c) {version : Text}
    (hskip : c.shared.2.skipped = some version) (hne : version ≠ []) :
    ¬ ((c.shared.1.state = .updateAvailable ∨ c.shared.1.state = .downloaded) ∧
      c.shared.1.info.version = version) ∧
    ∀ fetched autoDownload, c.shared.1.info.version = version → c.shared.1.repairPending = false →
      (c.shared.1.queueDownload fetched autoDownload).pendingDownload =
        c.shared.1.pendingDownload := by
  obtain ⟨⟨φ, -, hk⟩, -⟩ := (skips running).reach hc
  have hoffered : c.shared.1.info.version = version → c.shared.1.state ≠ .updateAvailable := by
    intro hsame hs
    exact Bool.false_ne_true ((hk.skipped version ⟨hskip, hne⟩ hsame).symm.trans (hk.offered hs))
  refine ⟨?_, fun fetched autoDownload hsame hrepair => ?_⟩
  · rintro ⟨hs | hs, hsame⟩
    · exact hoffered hsame hs
    · apply hk.unstaged version ⟨hskip, hne⟩
      rw [← hk.downloaded hs]
      exact hsame
  · exact UpdateService.queueDownload_pending (hoffered hsame) hrepair

/-- A version is skipped, and a check that finds it offers nothing. -/
theorem skip_sticks_run :
    ∃ c, ((watched ['1']).allow Honoured).Reach c ∧ c.shared.2.skipped = some ['2'] ∧
      c.shared.1.info.version = ['2'] ∧ c.shared.1.state ≠ .updateAvailable := by
  have h : ((watched ['1']).allow Honoured).Reach ⟨({}, {}), fun _ => .ret ()⟩ :=
    .init ⟨⟨{}, rfl⟩, rfl⟩
  have h := watched_call h 0 (.skipVersion ['2'])
  have h := watched_act h (.caller 0) (.setSkipVersion ['2']) () (g := by exact fun _ => nofun)
  have h := watched_act h (.caller 0) (.forgetVersion ['2']) ()
  have h := watched_call h 0 (.check true)
  have h := watched_act h (.caller 0) (.requestCheck true) ()
  have h := watched_round h
  have h := watched_act h .worker .stopping false
  have h := watched_act h .worker .takeNextJob .check
  have h := watched_act h .worker .readConfig _
  have h := watched_act h .worker (.fetchLatestRelease _) (.ok (reported ['2']))
  have h := watched_act h .worker .noteCheck ()
  have h := watched_act h .worker (.settleCheck .upToDate (reported ['2'])) ()
  have hsticks := (skip_sticks h (show _ = some ['2'] from rfl) nofun).1
  exact ⟨_, h, rfl, rfl, fun hs => hsticks ⟨.inl hs, rfl⟩⟩

/-- A version is skipped while a check for it is under way: the check offers it, and with
automatic downloads its download is queued. -/
theorem skipped_version_offered :
    ∃ c k, (watched ['1']).Reach c ∧ c.shared.2.skipped = some ['2'] ∧
      c.shared.1.info.version = ['2'] ∧ c.shared.1.state = .updateAvailable ∧
      (c.prog .worker).view = .ask (.queueDownload true true) k ∧
      c.shared.1.repairPending = false ∧ c.shared.1.pendingDownload = false ∧
      (c.shared.1.queueDownload true true).pendingDownload = true := by
  let cfg : Config := { autoDownload := true }
  have h : ((watched ['1']).allow fun _ _ => True).Reach
      ⟨({ config := cfg }, {}), fun _ => .ret ()⟩ := .init ⟨⟨cfg, rfl⟩, rfl⟩
  have h := watched_call h 0 (.check true)
  have h := watched_act h (.caller 0) (.requestCheck true) ()
  have h := watched_round h
  have h := watched_act h .worker .stopping false
  have h := watched_act h .worker .takeNextJob .check
  have h := watched_act h .worker .readConfig cfg
  have h := watched_call h 1 (.skipVersion ['2'])
  have h := watched_act h (.caller 1) (.setSkipVersion ['2']) ()
  have h := watched_act h (.caller 1) (.forgetVersion ['2']) ()
  have h := watched_act h .worker (.fetchLatestRelease _) (.ok (reported ['2']))
  have h := watched_act h .worker .noteCheck ()
  have h := watched_act h .worker
    (.settleCheck .updateAvailable { reported ['2'] with available := true }) ()
  have h := watched_act h .worker .readConfig _
  exact ⟨_, _, h.of_allow, rfl, rfl, rfl, rfl, rfl, rfl, rfl⟩

end Satellite.Update
