import Satellite.Update.Orderly

/-!
# Which releases are downloaded

The known release is one that the port has reported, or none. A download starts with one
that is offered, or with the one a repair was accepted for; but a skip between the repair's
acceptance and the start of its download leaves nothing to download, and the download starts
all the same. Where no release is taken away from a waiting repair, every download is of a
reported release.
-/

namespace Satellite.Update

open UpdateService (Job)

/-- The port has reported the release, up to whether it is offered. -/
def Reported (h : History) (info : UpdateInfo) : Prop :=
  ∃ release ∈ h.reported, info = { release with available := info.available }

/-- The known release is not skipped while a repair waits to download it. -/
def Kept : Instr → UpdateService × History → Prop
  | .forgetVersion version, (s, _) =>
    s.info.version = version → s.repairPending = true → s.state ≠ .downloading
  | _, _ => True

/-- What the worker holds, the board and the record say about the known release. -/
structure Listed (h : History) (φ : Phase) (b : Board) : Prop where
  known : b.info = {} ∨ Reported h b.info
  named : b.info.available = true → b.info.version ≠ []
  offered : b.state = .updateAvailable → b.info.available = true
  downloading : b.state = .downloading → b.info.version ≠ []
  installing : b.state = .installing → b.repairPending = false
  repair : b.repairPending = true → b.pendingCheck = true ∨ φ.job = some .check ∨
    b.state = .downloading ∧ (b.pendingDownload = true ∨ φ = .beginDownload)
  fetched : ∀ cfg info, φ = .note cfg (.ok info) ∨ φ = .settle cfg (.ok info) → info ∈ h.reported
  artifact : ∀ info, φ = .artifact info → info.version ≠ [] ∧ Reported h info

namespace Listed

variable {h : History} {φ ψ : Phase} {b d : Board} {applied : Bool}

/-- A caller that takes no release away from a waiting repair. -/
theorem acts (hl : Listed h φ b) (ho : b.Orderly φ.part applied) {i : Instr} (ha : Acts b i d)
    (hkept : b.repairPending = true → b.state = .downloading → d.info = b.info) : Listed h φ d := by
  cases ha with
  | none => exact hl
  | unstage _ | skip _ => exact { hl with }
  | check repair _ _ =>
    exact { hl with
      offered := nofun, downloading := nofun, installing := nofun, repair := fun _ => .inl rfl }
  | queueRepair hqueued =>
    refine { hl with installing := fun hs => ?_, repair := fun _ => ?_ }
    · -- no check is queued while an install shows
      have hcheck := ho.pendingCheck_eq hs (by decide) (by decide)
      rcases hqueued with hp | hc
      · exact absurd (hcheck.symm.trans hp) nofun
      · cases hc.symm.trans hs
    · rcases hqueued with hp | hc
      · exact .inl hp
      · rcases ho.checking hc with hp | hpart
        · exact .inl hp
        · exact .inr (.inl (by rw [φ.job_eq, hpart]; rfl))
  | offer _ havailable =>
    exact ⟨hl.known, hl.named, nofun, fun _ => hl.named havailable, nofun,
      fun _ => .inr (.inr ⟨rfl, .inl rfl⟩), hl.fetched, hl.artifact⟩
  | repair _ _ hversion =>
    exact ⟨hl.known, hl.named, nofun, fun _ => hversion, nofun,
      fun _ => .inr (.inr ⟨rfl, .inl rfl⟩), hl.fetched, hl.artifact⟩
  | install _ _ _ =>
    exact ⟨hl.known, hl.named, nofun, nofun, fun _ => rfl, nofun, hl.fetched, hl.artifact⟩
  | cancel state _ hstate =>
    rcases abandoned_cases hstate with ⟨rfl, havailable⟩ | rfl
    · exact ⟨hl.known, hl.named, fun _ => havailable, nofun, nofun, nofun, hl.fetched, hl.artifact⟩
    · exact ⟨hl.known, hl.named, nofun, nofun, nofun, nofun, hl.fetched, hl.artifact⟩
  | forget staged _ =>
    refine ⟨.inl rfl, nofun, nofun, nofun, nofun, fun hr => ?_, hl.fetched, hl.artifact⟩
    rcases hl.repair hr with hp | hjob | ⟨hs, -⟩
    · exact .inl hp
    · exact .inr (.inl hjob)
    · exact absurd (congrArg UpdateInfo.version (hkept hr hs)).symm (hl.downloading hs)

/-- At a position where the worker holds no release. -/
theorem plain (hplain : φ.plain = true) (hknown : b.info = {} ∨ Reported h b.info)
    (hnamed : b.info.available = true → b.info.version ≠ [])
    (hoffered : b.state = .updateAvailable → b.info.available = true)
    (hdownloading : b.state = .downloading → b.info.version ≠ [])
    (hinstalling : b.state = .installing → b.repairPending = false)
    (hrepair : b.repairPending = true → b.pendingCheck = true ∨ φ.job = some .check ∨
      b.state = .downloading ∧ b.pendingDownload = true) : Listed h φ b where
  known := hknown
  named := hnamed
  offered := hoffered
  downloading := hdownloading
  installing := hinstalling
  repair hr := (hrepair hr).imp_right (Or.imp_right fun hd => ⟨hd.1, .inl hd.2⟩)
  fetched cfg info hφ := by
    rcases hφ with rfl | rfl <;> cases hplain
  artifact info hφ := by
    subst hφ
    cases hplain

/-- Where a repair is pending outside a check, its download is about to be taken. -/
theorem repair_of_job (hl : Listed h φ b) (hjob : φ.job ≠ some .check) (hφ : φ ≠ .beginDownload)
    (hr : b.repairPending = true) :
    b.pendingCheck = true ∨ b.state = .downloading ∧ b.pendingDownload = true := by
  rcases hl.repair hr with hp | hj | ⟨hs, hp | hb⟩
  · exact .inl hp
  · exact absurd hj hjob
  · exact .inr ⟨hs, hp⟩
  · exact absurd hb hφ

/-- If no download but the worker's own shows, such a repair waits for a check. -/
theorem check_of_repair (hl : Listed h φ b) (ho : b.Orderly φ.part applied)
    (hjob : φ.job ≠ some .check) (hφ : φ ≠ .beginDownload)
    (hs : b.state = .downloading → φ.part = .loading) (hr : b.repairPending = true) :
    b.pendingCheck = true := by
  rcases hl.repair_of_job hjob hφ hr with hp | ⟨hs', hp⟩
  · exact hp
  · rw [hs hs'] at ho
    exact absurd ((ho.busy _ rfl).1.symm.trans hp) nofun

/-- The worker moves on with the same board. -/
theorem same (hl : Listed h φ b) (hplain : ψ.plain = true) (hφ : φ ≠ .beginDownload)
    (hjob : ψ.job = φ.job) : Listed h ψ b := by
  refine plain hplain hl.known hl.named hl.offered hl.downloading hl.installing fun hr => ?_
  rcases hl.repair hr with hp | hj | ⟨hs, hp | hb⟩
  · exact .inl hp
  · exact .inr (.inl (hjob.trans hj))
  · exact .inr (.inr ⟨hs, hp⟩)
  · exact absurd hb hφ

end Listed

/-- What a check settles with: the release as reported, offered only if it is newer than the
running version and than a skipped one. -/
theorem checkedRelease_eq (running skipVer : Text) (info : UpdateInfo) :
    ∃ available, (checkedRelease running skipVer info).2 = { info with available := available } ∧
      (available = true → compareSemver info.version running = .gt) ∧
      (available = true → skipVer ≠ [] → compareSemver info.version skipVer = .gt) ∧
      ((checkedRelease running skipVer info).1 = .updateAvailable → available = true) := by
  unfold checkedRelease
  dsimp only
  split
  next hold =>
    exact ⟨_, rfl, fun h => absurd h (by simpa using hold), fun h => absurd h (by simpa using hold),
      nofun⟩
  next hnew =>
    have hgt : compareSemver info.version running = .gt := by simpa using hnew
    split
    · exact ⟨false, rfl, nofun, nofun, nofun⟩
    next hskip =>
      refine ⟨_, rfl, fun _ => hgt, fun _ hne => ?_, fun _ => by rw [hgt]; rfl⟩
      by_contra hle
      exact hskip ⟨hne, hle⟩

namespace Listed

variable {running : Text} {h h' : History} {φ ψ : Phase} {b d : Board} {applied : Bool}

theorem Reported.mono {info release : UpdateInfo} (hr : Reported h info) :
    Reported { h with reported := release :: h.reported } info := by
  obtain ⟨found, hmem, heq⟩ := hr
  exact ⟨found, List.mem_cons_of_mem _ hmem, heq⟩

/-- A step of the worker. -/
theorem turn (hrunning : compareSemver [] running ≠ .gt) (hl : Listed h φ b)
    (ho : b.Orderly φ.part applied) (ht : Turn running b h φ ψ d h') : Listed h' ψ d := by
  cases ht with
  | quiet hφ hpart hplain =>
    exact hl.same hplain hφ (by rw [ψ.job_eq, φ.job_eq, hpart])
  | readSkip cfg _ | fetchFailed cfg err =>
    exact { hl with repair := fun _ => .inr (.inl rfl), fetched := nofun, artifact := nofun }
  | fetched cfg info =>
    refine { hl with
      known := hl.known.imp_right Reported.mono, repair := fun _ => .inr (.inl rfl)
      fetched := ?_, artifact := nofun }
    rintro cfg' info' (heq | heq) <;> cases heq
    exact List.mem_cons_self
  | note cfg fetched =>
    refine { hl with repair := fun _ => .inr (.inl rfl), fetched := ?_, artifact := nofun }
    rintro cfg' info' (heq | heq) <;> cases heq
    exact hl.fetched cfg info' (.inl rfl)
  | readRelease | stageConfig info autoInstall | applying _ | loading info | verified info localPath =>
    refine { hl with repair := fun hr => ?_, fetched := nofun, artifact := nofun }
    exact (hl.repair_of_job nofun nofun hr).imp_right fun hd => .inr ⟨hd.1, .inl hd.2⟩
  | late cfg fetched ok _ => exact hl.same rfl nofun rfl
  | inFlight fetched autoDownload hflight =>
    refine plain rfl hl.known hl.named hl.offered hl.downloading hl.installing fun hr => ?_
    cases hs : b.state <;> rw [hs] at hflight <;> try cases hflight
    · exact .inl ((ho.checking hs).resolve_right nofun)
    · exact .inr (.inr ⟨rfl, (ho.downloading hs).resolve_right nofun⟩)
    · exact absurd (ho.verifying hs) nofun
    · exact absurd ((hl.installing hs).symm.trans hr) nofun
  | giveWay hcheck =>
    exact plain rfl hl.known hl.named hl.offered hl.downloading hl.installing fun _ => .inl hcheck
  | missed hown hpart hφ _ =>
    refine plain rfl hl.known hl.named hl.offered hl.downloading hl.installing fun hr => ?_
    refine (hl.repair_of_job ?_ hφ hr).imp_right .inr
    rw [φ.job_eq]
    exact Part.job_of_own hown hpart
  | takeInstall _ | launched info localPath =>
    refine plain rfl hl.known hl.named hl.offered hl.downloading hl.installing fun hr => ?_
    exact (hl.repair_of_job nofun nofun hr).imp_right .inr
  | takeDownload _ _ =>
    refine { hl with repair := fun hr => ?_, fetched := nofun, artifact := nofun }
    exact (hl.repair_of_job nofun nofun hr).imp_right fun hd => .inr ⟨hd.1, .inr rfl⟩
  | takeCheck _ _ =>
    exact ⟨hl.known, hl.named, nofun, nofun, nofun, fun _ => .inr (.inl rfl), nofun, nofun⟩
  | settled cfg info state _ _ hstate =>
    obtain ⟨available, heq, hnewer, -, hoffered⟩ := checkedRelease_eq running cfg.skipVersion info
    have hflight : workInFlight state = false := by
      rcases hstate with rfl | ⟨rfl, -⟩
      · exact checkedRelease_flight running cfg.skipVersion info
      · rfl
    apply plain rfl
    · refine .inr ⟨info, hl.fetched cfg info (.inr rfl), ?_⟩
      rw [heq]
    · rw [heq]
      intro ha hversion
      rw [show info.version = [] from hversion] at hnewer
      exact hrunning (hnewer ha)
    · rintro rfl
      rw [heq]
      exact hoffered (hstate.resolve_right nofun).symm
    · rintro rfl
      cases hflight
    · rintro rfl
      cases hflight
    · exact fun _ => .inr (.inl rfl)
  | settledFailed cfg err state _ _ hstate =>
    rcases hstate with rfl | ⟨rfl, havailable⟩ | ⟨rfl, -⟩
    · exact plain rfl hl.known hl.named nofun nofun nofun fun _ => .inr (.inl rfl)
    · exact plain rfl hl.known hl.named (fun _ => havailable) nofun nofun fun _ => .inr (.inl rfl)
    · exact plain rfl hl.known hl.named nofun nofun nofun fun _ => .inr (.inl rfl)
  | dropped fetched autoDownload _ =>
    exact plain rfl hl.known hl.named hl.offered hl.downloading (fun _ => rfl) nofun
  | queued fetched autoDownload repair _ hwanted _ =>
    have hversion : b.info.version ≠ [] := by
      rcases hwanted with hs | ⟨hversion, -⟩
      · exact hl.named (hl.offered hs)
      · exact hversion
    exact plain rfl hl.known hl.named nofun (fun _ => hversion) nofun fun _ => .inr (.inr ⟨rfl, rfl⟩)
  | abandoned state _ hstate =>
    rcases abandoned_cases hstate with ⟨rfl, havailable⟩ | rfl
    · exact plain rfl hl.known hl.named (fun _ => havailable) nofun nofun nofun
    · exact plain rfl hl.known hl.named nofun nofun nofun nofun
  | begun hcheck hwanted =>
    have hversion : b.info.version ≠ [] := by
      rcases hwanted with ha | hr
      · exact hl.named ha
      · -- a repair that is not behind a check still has its release
        rcases hl.repair hr with hp | hjob | ⟨hs, -⟩
        · exact absurd (hcheck.symm.trans hp) nofun
        · cases hjob
        · exact hl.downloading hs
    have hreported : Reported h b.info := by
      rcases hl.known with hnone | hreported
      · rw [hnone] at hversion
        exact absurd rfl hversion
      · exact hreported
    refine ⟨hl.known, hl.named, nofun, fun _ => hversion, nofun, nofun, nofun, ?_⟩
    rintro info ⟨⟩
    exact ⟨hversion, hreported⟩
  | cancelled state _ hstate =>
    have hrepair := hl.check_of_repair ho nofun nofun fun _ => rfl
    rcases abandoned_cases hstate with ⟨rfl, havailable⟩ | rfl
    · exact plain rfl hl.known hl.named (fun _ => havailable) nofun nofun fun hr => .inl (hrepair hr)
    · exact plain rfl hl.known hl.named nofun nofun nofun fun hr => .inl (hrepair hr)
  | enterVerifying localPath _ =>
    refine plain rfl hl.known hl.named nofun nofun nofun fun hr => .inl ?_
    exact hl.check_of_repair ho nofun nofun (fun _ => rfl) hr
  | staged info autoInstall hs =>
    refine plain rfl hl.known hl.named nofun nofun nofun fun hr => .inl ?_
    exact hl.check_of_repair ho nofun nofun (fun hs' => nomatch hs.symm.trans hs') hr
  | stagedInstall info autoInstall _ =>
    exact plain rfl hl.known hl.named nofun nofun (fun _ => rfl) nofun
  | failed hown hpart hφ hs =>
    refine plain rfl hl.known hl.named nofun nofun nofun fun hr => .inl ?_
    have hjob : φ.job ≠ some .check := φ.job_eq ▸ Part.job_of_own hown hpart
    -- a download that shows is the one that failed
    refine hl.check_of_repair ho hjob hφ (fun hs' => Part.eq_of_own hown ?_) hr
    rw [← hs, hs']
    rfl

end Listed

/-! ## The whole service -/

/-- The record of reported releases is the port's alone. -/
theorem History.reported_note {i : Instr} {r : i.Answer} {h : History} (hi : i.byCaller = true) :
    (h.note i r).reported = h.reported := by
  cases i <;> first | rfl | cases hi

theorem Listed.of_reported {h h' : History} {φ : Phase} {b : Board} (hl : Listed h φ b)
    (heq : h'.reported = h.reported) : Listed h' φ b := by
  have hreported : ∀ info, Reported h info → Reported h' info := by
    rintro info ⟨release, hmem, hinfo⟩
    exact ⟨release, heq ▸ hmem, hinfo⟩
  refine { hl with
    known := hl.known.imp_right (hreported _)
    fetched := fun cfg info hφ => heq ▸ hl.fetched cfg info hφ, artifact := fun info hφ => ?_ }
  obtain ⟨hversion, hr⟩ := hl.artifact info hφ
  exact ⟨hversion, hreported info hr⟩

theorem listed {running : Text} (hrunning : compareSemver [] running ≠ .gt) :
    System.Outline ((watched running).allow Kept) .worker (worker running)
      (fun i => i.byCaller = true)
      (fun φ s => Steered running φ s ∧ Listed s.2 φ s.1.board) where
  init s hs := by
    obtain ⟨s, h⟩ := s
    obtain ⟨⟨config, rfl⟩, rfl⟩ := hs
    exact ⟨.idle, rfl, steered_init running config,
      Listed.plain rfl (.inl rfl) nofun nofun nofun nofun nofun⟩
  start φ s p hmove hI hp := by
    obtain rfl := Phase.eq_idle_of_move hmove
    exact ⟨.stopping, hp.symm, hI.1.start, hI.2.same rfl nofun rfl⟩
  move φ i next s r u hmove hI hstep := by
    refine ⟨(steered running).move φ i next s r u hmove hI.1 hstep.1, ?_⟩
    rw [hstep.1.2]
    exact hI.2.turn hrunning hI.1.orderly (Phase.turn hmove hstep.1.1)
  others := (steered running).others
  keep φ t i s r u ht hi hI hstep := by
    refine ⟨(steered running).keep φ t i s r u ht hi hI.1 hstep.1, ?_⟩
    have hkept : s.1.repairPending = true → s.1.state = .downloading → u.1.info = s.1.info := by
      intro hr hs
      rcases (acts_of_step hi hstep.1.1).info with hsame | ⟨rfl, -⟩
      · exact hsame
      · exact absurd hs (hstep.2 rfl hr)
    have hl := hI.2.acts hI.1.orderly (acts_of_step hi hstep.1.1) hkept
    exact hl.of_reported (hstep.1.2 ▸ History.reported_note hi)

/-- In every run in which no release is taken away from a waiting repair, what is downloaded has
a version and is a release that the port has reported. -/
theorem downloaded_release_reported {running : Text} (hrunning : compareSemver [] running ≠ .gt)
    {c : System.Config Thread Instr Instr.Answer (UpdateService × History)}
    (hc : ((watched running).allow Kept).Reach c) {t : Thread} {info : UpdateInfo}
    {k : Unit → Task Unit} (hask : (c.prog t).view = .ask (.downloadArtifact info) k) :
    info.version ≠ [] ∧ Reported c.shared.2 info := by
  obtain ⟨φ, next, hmove, -, hl⟩ := (listed hrunning).ask hc hask nofun
  exact hl.artifact info (Phase.eq_artifact hmove)

/-- A check settles on a newer release, which is downloaded. -/
theorem downloaded_release_reported_run :
    ∃ c info k, ((watched ['1']).allow Kept).Reach c ∧
      (c.prog .worker).view = .ask (.downloadArtifact info) k ∧
      info.version ≠ [] ∧ Reported c.shared.2 info := by
  let info : UpdateInfo := { reported ['2'] with available := true }
  have h : ((watched ['1']).allow Kept).Reach ⟨({}, {}), fun _ => .ret ()⟩ :=
    .init ⟨⟨{}, rfl⟩, rfl⟩
  have h := watched_call h 0 (.check true)
  have h := watched_act h (.caller 0) (.requestCheck true) ()
  have h := watched_round h
  have h := watched_act h .worker .stopping false
  have h := watched_act h .worker .takeNextJob .check
  have h := watched_act h .worker .readConfig _
  have h := watched_act h .worker (.fetchLatestRelease _) (.ok (reported ['2']))
  have h := watched_act h .worker .noteCheck ()
  have h := watched_act h .worker (.settleCheck .updateAvailable info) ()
  have h := watched_act h .worker .readConfig _
  have h := watched_act h .worker (.queueDownload true false) ()
  have h := watched_call h 0 .download
  have h := watched_act h (.caller 0) .requestDownload ()
  have h := watched_round h
  have h := watched_act h .worker .stopping false
  have h := watched_act h .worker .takeNextJob .download
  have h := watched_act h .worker .beginDownload (some info)
  exact ⟨_, info, _, h, rfl, downloaded_release_reported (by decide) h (t := .worker) rfl⟩

/-- A repair of the running version is accepted and taken up; the version is skipped before the
download starts, and an empty release is downloaded. -/
theorem repair_downloads_nothing :
    ∃ c k, (watched ['1']).Reach c ∧ (c.prog .worker).view = .ask (.downloadArtifact {}) k ∧
      ¬ Reported c.shared.2 {} := by
  have h : ((watched ['1']).allow fun _ _ => True).Reach ⟨({}, {}), fun _ => .ret ()⟩ :=
    .init ⟨⟨{}, rfl⟩, rfl⟩
  have h := watched_call h 0 (.check true)
  have h := watched_act h (.caller 0) (.requestCheck true) ()
  have h := watched_round h
  have h := watched_act h .worker .stopping false
  have h := watched_act h .worker .takeNextJob .check
  have h := watched_act h .worker .readConfig _
  have h := watched_act h .worker (.fetchLatestRelease _) (.ok (reported ['1']))
  have h := watched_act h .worker .noteCheck ()
  have h := watched_act h .worker (.settleCheck .upToDate (reported ['1'])) ()
  have h := watched_act h .worker .readConfig _
  have h := watched_act h .worker (.queueDownload true false) ()
  have h := watched_call h 0 .repair
  have h := watched_act h (.caller 0) .requestRepair ()
  have h := watched_round h
  have h := watched_act h .worker .stopping false
  have h := watched_act h .worker .takeNextJob .download
  have h := watched_call h 1 (.skipVersion ['1'])
  have h := watched_act h (.caller 1) (.setSkipVersion ['1']) ()
  have h := watched_act h (.caller 1) (.forgetVersion ['1']) ()
  have h := watched_act h .worker .beginDownload (some {})
  refine ⟨_, _, h.of_allow, rfl, ?_⟩
  rintro ⟨release, hmem, heq⟩
  obtain rfl : release = reported ['1'] := List.mem_singleton.1 hmem
  cases congrArg UpdateInfo.version heq

end Satellite.Update
