import Satellite.Update.Turns

/-!
# What a repair downloads

A repair downloads whatever release the service knows. That is the running version as
long as every check settles on a release that is offered or has the precedence of the
running version, and the known release is not skipped under a pending repair. Otherwise
it is not: a check that finds an older release leaves it for the repair to download.
-/

namespace Satellite.Update

open UpdateService

/-- The release is offered as an update or has the precedence of the running version. -/
def Known (running : Text) (info : UpdateInfo) : Prop :=
  info.available = true ∨ compareSemver info.version running = .eq

/-- A release that may follow the known one: that one again, one that is offered or has the
precedence of the running version, or none while no repair is pending. -/
def Fits (running : Text) (known : UpdateInfo) (repairPending : Bool) (info : UpdateInfo) : Prop :=
  info = known ∨ Known running info ∨ info = {} ∧ repairPending = false

/-- Every check settles on a fitting release, and the known release is skipped only where having
none fits. -/
def Steady (running : Text) : Instr → UpdateService → Prop
  | .settleCheck _ info, s => s.checkSuperseded = true ∨ Fits running s.info s.repairPending info
  | .forgetVersion version, s =>
    s.info.version = version → Fits running s.info s.repairPending {}
  | _, _ => True

/-- A pending repair has a release to download, or a check that comes first; where a check has just
settled it may still be dropped. -/
structure Mends (running : Text) (φ : Phase) (b : Board) : Prop where
  known : Known running b.info ∨ b.info = {}
  unchecked : φ.part ≠ .checking → b.state = .checking → b.pendingCheck = true
  repair : b.repairPending = true → Known running b.info ∨ b.pendingCheck = true ∨
    b.state = .checking ∨ (φ.part = .checking ∨ φ.part = .settled) ∧ workInFlight b.state = false
  artifact : ∀ info, φ = .artifact info → Known running info

namespace Mends

variable {running : Text} {φ ψ : Phase} {b d : Board}

/-- A release with a version is no blank. -/
theorem known_of_version (hm : Mends running φ b) (hversion : b.info.version ≠ []) :
    Known running b.info := by
  rcases hm.known with hknown | hnone
  · exact hknown
  · rw [hnone] at hversion
    exact absurd rfl hversion

/-- No repair is pending and no check shows. -/
theorem settled (hknown : Known running d.info ∨ d.info = {}) (hstate : d.state ≠ .checking)
    (hrepair : d.repairPending = false) (hψ : ∀ info, ψ ≠ .artifact info) : Mends running ψ d where
  known := hknown
  unchecked _ hs := absurd hs hstate
  repair hr := absurd (hrepair.symm.trans hr) nofun
  artifact info heq := absurd heq (hψ info)

theorem abandoned_ne {info : UpdateInfo} {state : UpdateState}
    (h : state = if info.available then .updateAvailable else .idle) : state ≠ .checking := by
  rcases abandoned_cases h with ⟨rfl, -⟩ | rfl <;> nofun

/-- A caller that leaves a fitting release. -/
theorem acts (hm : Mends running φ b) {i : Instr} (ha : Acts b i d)
    (hfits : Fits running b.info b.repairPending d.info) : Mends running φ d := by
  cases ha with
  | none => exact hm
  | unstage _ | skip _ => exact { hm with }
  | check repair _ _ =>
    exact ⟨hm.known, fun _ _ => rfl, fun _ => .inr (.inl rfl), hm.artifact⟩
  | queueRepair hqueued =>
    refine { hm with repair := fun _ => ?_ }
    rcases hqueued with hp | hs
    · exact .inr (.inl hp)
    · exact .inr (.inr (.inl hs))
  | offer _ havailable => exact ⟨hm.known, nofun, fun _ => .inl (.inl havailable), hm.artifact⟩
  | repair _ _ hversion =>
    exact ⟨hm.known, nofun, fun _ => .inl (hm.known_of_version hversion), hm.artifact⟩
  | install _ _ _ => exact ⟨hm.known, nofun, nofun, hm.artifact⟩
  | cancel state _ hstate =>
    exact ⟨hm.known, fun _ hs => absurd hs (abandoned_ne hstate), nofun, hm.artifact⟩
  | forget staged _ =>
    refine ⟨.inr rfl, nofun, fun hr => ?_, hm.artifact⟩
    by_cases hpart : φ.part = .checking ∨ φ.part = .settled
    · exact .inr (.inr (.inr ⟨hpart, rfl⟩))
    · rcases hfits with hsame | hknown | ⟨-, hrepair⟩
      · -- nothing was known: the repair waits for a check, which is still queued
        rcases hm.repair hr with hknown | hp | hs | hsettled
        · exact .inl (show Known running {} from (show {} = b.info from hsame) ▸ hknown)
        · exact .inr (.inl hp)
        · exact .inr (.inl (hm.unchecked (fun heq => hpart (.inl heq)) hs))
        · exact absurd hsettled.1 hpart
      · exact .inl hknown
      · exact absurd (hrepair.symm.trans hr) nofun

/-- The worker goes on with the same release and flags, in the same part. -/
theorem same (hm : Mends running φ b) (hpart : ψ.part = φ.part) (hψ : ∀ info, ψ ≠ .artifact info) :
    Mends running ψ b where
  known := hm.known
  unchecked := hpart ▸ hm.unchecked
  repair := hpart ▸ hm.repair
  artifact info heq := absurd heq (hψ info)

/-- The worker leaves a part that is no check, where what shows is no check either. -/
theorem leave (hm : Mends running φ b) (hpart : φ.part ≠ .checking ∧ φ.part ≠ .settled)
    (hψ : ∀ info, ψ ≠ .artifact info) (hinfo : d.info = b.info)
    (hcheck : d.pendingCheck = b.pendingCheck) (hrepair : d.repairPending = b.repairPending)
    (hstate : d.state = b.state ∨ b.state ≠ .checking ∧ d.state ≠ .checking) :
    Mends running ψ d where
  known := hinfo ▸ hm.known
  unchecked _ hs := by
    rcases hstate with heq | ⟨-, hne⟩
    · exact hcheck.trans (hm.unchecked hpart.1 (heq ▸ hs))
    · exact absurd hs hne
  repair hr := by
    rcases hm.repair (hrepair ▸ hr) with hknown | hp | hs | ⟨hp | hp, -⟩
    · exact .inl (hinfo ▸ hknown)
    · exact .inr (.inl (hcheck.trans hp))
    · exact .inr (.inl (hcheck.trans (hm.unchecked hpart.1 hs)))
    · exact absurd hp hpart.1
    · exact absurd hp hpart.2
  artifact info heq := absurd heq (hψ info)

theorem part_of_own {state : UpdateState} (hown : φ.part.own = some state)
    (hpart : φ.part ≠ .checking) : φ.part ≠ .checking ∧ φ.part ≠ .settled :=
  ⟨hpart, fun heq => absurd ((congrArg Part.own heq).symm.trans hown) nofun⟩

/-- A step of the worker, where a check settles on a fitting release. -/
theorem turn {h h' : History} (hm : Mends running φ b) (ht : Turn running b h φ ψ d h')
    (hfits : ∀ cfg info, φ = .settle cfg (.ok info) → b.state = .checking → b.pendingCheck = false →
      Fits running b.info b.repairPending (checkedRelease running cfg.skipVersion info).2) :
    Mends running ψ d := by
  cases ht with
  | quiet _ hpart hplain =>
    refine hm.same hpart ?_
    rintro info rfl
    cases hplain
  | readSkip cfg _ | fetched cfg info | fetchFailed cfg err | note cfg fetched | readRelease
  | stageConfig info autoInstall | applying _ => exact hm.same rfl nofun
  | loading info =>
    exact { hm.same (ψ := .report) rfl nofun with }
  | verified info localPath =>
    exact { hm.same (ψ := .stageConfig info) rfl nofun with }
  | late cfg fetched ok hlate =>
    refine ⟨hm.known, fun _ => hlate, fun hr => ?_, nofun⟩
    exact (hm.repair hr).imp_right (.imp_right (.imp_right fun hs => ⟨.inr rfl, hs.2⟩))
  | inFlight fetched autoDownload hflight =>
    refine ⟨hm.known, fun _ => hm.unchecked nofun, fun hr => ?_, nofun⟩
    rcases hm.repair hr with hknown | hp | hs | ⟨-, hidle⟩
    · exact .inl hknown
    · exact .inr (.inl hp)
    · exact .inr (.inr (.inl hs))
    · exact absurd (hidle.symm.trans hflight) nofun
  | giveWay _ => exact hm.leave ⟨nofun, nofun⟩ nofun rfl rfl rfl (.inl rfl)
  | missed hown hpart _ _ => exact hm.leave (part_of_own hown hpart) nofun rfl rfl rfl (.inl rfl)
  | takeInstall _ | takeDownload _ _ | launched info localPath =>
    exact hm.leave ⟨nofun, nofun⟩ nofun rfl rfl rfl (.inl rfl)
  | takeCheck _ _ =>
    exact ⟨hm.known, fun hpart => absurd rfl hpart, fun _ => .inr (.inr (.inl rfl)), nofun⟩
  | settled cfg info state hs hp hstate =>
    have hflight : workInFlight state = false := by
      rcases hstate with rfl | ⟨rfl, -⟩
      · exact checkedRelease_flight running cfg.skipVersion info
      · rfl
    refine ⟨?_, fun _ hs => ?_, fun _ => .inr (.inr (.inr ⟨.inr rfl, hflight⟩)), nofun⟩
    · rcases hfits cfg info rfl hs hp with hsame | hknown | ⟨hnone, -⟩
      · rw [hsame]
        exact hm.known
      · exact .inl hknown
      · exact .inr hnone
    · rw [show state = .checking from hs] at hflight
      cases hflight
  | settledFailed cfg err state _ _ hstate =>
    have hidle : workInFlight state = false ∧ state ≠ .checking := by
      rcases hstate with rfl | ⟨rfl, -⟩ | ⟨rfl, -⟩ <;> exact ⟨rfl, nofun⟩
    exact ⟨hm.known, fun _ hs => absurd hs hidle.2,
      fun _ => .inr (.inr (.inr ⟨.inr rfl, hidle.1⟩)), nofun⟩
  | dropped fetched autoDownload _ => exact ⟨hm.known, fun _ => hm.unchecked nofun, nofun, nofun⟩
  | queued fetched autoDownload repair _ _ hrepair =>
    exact ⟨hm.known, nofun, fun hr => .inl (hm.known_of_version (hrepair hr).1), nofun⟩
  | abandoned state _ hstate => exact settled hm.known (abandoned_ne hstate) rfl nofun
  | begun hcheck hwanted =>
    refine ⟨hm.known, nofun, nofun, ?_⟩
    rintro info ⟨⟩
    rcases hwanted with havailable | hr
    · exact .inl havailable
    · -- were nothing known, a check would come first
      rcases hm.repair hr with hknown | hp | hs | ⟨hpart | hpart, -⟩
      · exact hknown
      · exact absurd (hcheck.symm.trans hp) nofun
      · exact absurd (hcheck.symm.trans (hm.unchecked nofun hs)) nofun
      · cases hpart
      · cases hpart
  | cancelled state hs hstate =>
    exact hm.leave ⟨nofun, nofun⟩ nofun rfl rfl rfl (.inr ⟨hs ▸ nofun, abandoned_ne hstate⟩)
  | enterVerifying localPath hs | staged info autoInstall hs =>
    exact hm.leave ⟨nofun, nofun⟩ nofun rfl rfl rfl (.inr ⟨hs ▸ nofun, nofun⟩)
  | stagedInstall info autoInstall _ => exact settled hm.known nofun rfl nofun
  | failed hown hpart _ hs =>
    refine hm.leave (part_of_own hown hpart) nofun rfl rfl rfl (.inr ⟨fun hc => ?_, nofun⟩)
    exact hpart (Part.eq_of_own hown ((hs.symm.trans hc) ▸ rfl))

end Mends

theorem mends (running : Text) :
    System.Outline ((updates running).allow (Steady running)) .worker (worker running)
      (fun i => i.byCaller = true) (fun φ s => Mends running φ s.board) where
  init s hs := by
    obtain ⟨config, rfl⟩ := hs
    exact ⟨.idle, rfl, Mends.settled (.inr rfl) nofun rfl nofun⟩
  start φ s p hmove hI hp := by
    obtain rfl := Phase.eq_idle_of_move hmove
    exact ⟨.stopping, hp.symm, hI.same rfl nofun⟩
  move φ i next s r u hmove hI hstep := by
    refine hI.turn (Phase.turn (h := {}) hmove hstep.1) ?_
    rintro cfg info rfl hs hp
    cases hmove
    refine hstep.2.resolve_left fun hsuperseded => ?_
    exact Bool.false_ne_true (hp.symm.trans (checkSuperseded_iff.1 hsuperseded hs))
  others := callers_only
  keep φ t i s r u _ hi hI hstep := by
    have ha := acts_of_step hi hstep.1
    refine hI.acts ha ?_
    rcases ha.info with hsame | ⟨rfl, hnone⟩
    · exact .inl hsame
    · rw [hnone]
      exact hstep.2 rfl

/-- In every run in which the known release stays steady, a download of a release that is not
offered as an update is one of the running version. -/
theorem repair_downloads_running_version {running : Text}
    {c : System.Config Thread Instr Instr.Answer UpdateService}
    (hc : ((updates running).allow (Steady running)).Reach c) {t : Thread} {info : UpdateInfo}
    {k : Unit → Task Unit} (hask : (c.prog t).view = .ask (.downloadArtifact info) k)
    (hoffered : info.available = false) : compareSemver info.version running = .eq := by
  obtain ⟨φ, next, hmove, hm⟩ := (mends running).ask hc hask nofun
  rcases hm.artifact info (Phase.eq_artifact hmove) with havailable | hsame
  · exact absurd (hoffered.symm.trans havailable) nofun
  · exact hsame

/-- Up to the download of a repair: a check fetches a release and settles on it. -/
theorem repair_downloads_running_version_run :
    ∃ c info k, ((updates ['2']).allow (Steady ['2'])).Reach c ∧
      (c.prog .worker).view = .ask (.downloadArtifact info) k ∧ info.available = false ∧
      compareSemver info.version ['2'] = .eq := by
  have h : ((updates ['2']).allow (Steady ['2'])).Reach ⟨{}, fun _ => .ret ()⟩ := .init ⟨{}, rfl⟩
  have h := reach_call h 0 .repair
  have h := reach_act h (.caller 0) .requestRepair ()
  have h := reach_round h ['2']
  have h := reach_act h .worker .stopping false
  have h := reach_act h .worker .takeNextJob .check
  have h := reach_act h .worker .readConfig {}
  have h := reach_act h .worker (.fetchLatestRelease _) (.ok (reported ['2']))
  have h := reach_act h .worker .noteCheck ()
  have h := reach_act h .worker (.settleCheck .upToDate (reported ['2'])) () rfl
    ⟨rfl, .inr (.inr (.inl (.inr (by decide))))⟩
  have h := reach_act h .worker .readConfig _
  have h := reach_act h .worker (.queueDownload true false) ()
  have h := reach_round h ['2']
  have h := reach_act h .worker .stopping false
  have h := reach_act h .worker .takeNextJob .download
  have h := reach_act h .worker .beginDownload (some (reported ['2']))
  exact ⟨_, reported ['2'], _, h, rfl, rfl, repair_downloads_running_version h (t := .worker) rfl rfl⟩

/-- A repair is requested, the check that precedes it finds an older release, and the repair
downloads that one. -/
theorem repair_downloads_older_release :
    ∃ c info k, (updates ['2']).Reach c ∧ (c.prog .worker).view = .ask (.downloadArtifact info) k ∧
      info.available = false ∧ compareSemver info.version ['2'] = .lt := by
  have h : (updates ['2']).Reach ⟨{}, fun _ => .ret ()⟩ := .init ⟨{}, rfl⟩
  have h := reach_call h 0 .repair
  have h := reach_act h (.caller 0) .requestRepair ()
  have h := reach_round h ['2']
  have h := reach_act h .worker .stopping false
  have h := reach_act h .worker .takeNextJob .check
  have h := reach_act h .worker .readConfig {}
  have h := reach_act h .worker (.fetchLatestRelease _) (.ok (reported ['1']))
  have h := reach_act h .worker .noteCheck ()
  have h := reach_act h .worker (.settleCheck .upToDate (reported ['1'])) ()
  have h := reach_act h .worker .readConfig _
  have h := reach_act h .worker (.queueDownload true false) ()
  have h := reach_round h ['2']
  have h := reach_act h .worker .stopping false
  have h := reach_act h .worker .takeNextJob .download
  have h := reach_act h .worker .beginDownload (some (reported ['1']))
  exact ⟨_, reported ['1'], _, h, rfl, rfl, by decide⟩

end Satellite.Update
