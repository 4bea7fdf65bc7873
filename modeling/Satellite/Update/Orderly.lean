import Satellite.Update.Turns

/-!
# No work without a job

Where the state shows work in flight, its job is pending or the worker is at it, or the
installer has been launched. The invariant ties the three pending flags, the state and the
known release to the part of the round the worker is in. A skip takes the release away under
a running job and leaves the service blank; from there nothing but a check is accepted, and
the worker's late results find a state that is no longer theirs.
-/

namespace Satellite.Update

open UpdateService (Job)

/-- What the state shows while the worker is in the part, unless it was taken away. -/
def Part.shows : Part → Option UpdateState
  | .checking => some .checking
  | .loading => some .downloading
  | .verifying => some .verifying
  | .round | .settled | .installing => none

theorem Part.shows_flight {part : Part} {state : UpdateState} (h : part.shows = some state) :
    workInFlight state = true := by
  cases part <;> cases h <;> rfl

namespace Board

/-- No release is known, and at most a check is on its way. -/
def Blank (b : Board) : Prop :=
  b.info = {} ∧ (b.state = .idle ∨ b.state = .checking ∧ b.pendingCheck = true)

structure Orderly (b : Board) (part : Part) (applied : Bool) : Prop where
  pendingCheck : b.pendingCheck = true → b.state = .checking ∨ b.Blank
  pendingDownload : b.pendingDownload = true → b.state = .downloading ∨ b.Blank
  busy : ∀ state, part.shows = some state →
    b.pendingDownload = false ∧ (b.state = state ∨ b.Blank)
  checking : b.state = .checking → b.pendingCheck = true ∨ part = .checking
  downloading : b.state = .downloading → b.pendingDownload = true ∨ part = .loading
  verifying : b.state = .verifying → part = .verifying
  installing : b.state = .installing →
    b.pendingInstall = true ∨ part = .installing ∨ applied = true

variable {b d : Board} {part : Part} {applied : Bool}

theorem not_blank {state : UpdateState} (hs : b.state = state) (hidle : state ≠ .idle)
    (hchecking : state ≠ .checking) : ¬ b.Blank := by
  rintro ⟨-, heq | ⟨heq, -⟩⟩
  · exact hidle (hs.symm.trans heq)
  · exact hchecking (hs.symm.trans heq)

/-- Where an outcome shows, nothing but an install is pending and the worker has settled. -/
theorem Orderly.calm (h : b.Orderly part applied) (hflight : workInFlight b.state = false)
    (hblank : ¬ b.Blank) :
    b.pendingCheck = false ∧ b.pendingDownload = false ∧ part.shows = none := by
  have hne : ∀ state, workInFlight state = true → b.state ≠ state := by
    intro state hstate heq
    rw [heq, hstate] at hflight
    cases hflight
  refine ⟨?_, ?_, ?_⟩
  · rw [Bool.eq_false_iff]
    intro hp
    exact (h.pendingCheck hp).elim (hne _ rfl) hblank
  · rw [Bool.eq_false_iff]
    intro hp
    exact (h.pendingDownload hp).elim (hne _ rfl) hblank
  · rw [Option.eq_none_iff_forall_ne_some]
    intro state hshows
    exact (h.busy state hshows).2.elim (hne _ (Part.shows_flight hshows)) hblank

theorem Orderly.calm_at (h : b.Orderly part applied) {state : UpdateState} (hs : b.state = state)
    (hflight : workInFlight state = false := by rfl) (hidle : state ≠ .idle := by decide)
    (hchecking : state ≠ .checking := by decide) :
    b.pendingCheck = false ∧ b.pendingDownload = false ∧ part.shows = none :=
  h.calm (hs ▸ hflight) (not_blank hs hidle hchecking)

/-- No check is pending while other work shows. -/
theorem Orderly.pendingCheck_eq (h : b.Orderly part applied) {state : UpdateState}
    (hstate : b.state = state) (hidle : state ≠ .idle) (hchecking : state ≠ .checking) :
    b.pendingCheck = false := by
  rw [Bool.eq_false_iff]
  intro hp
  rcases h.pendingCheck hp with heq | hblank
  · exact hchecking (hstate.symm.trans heq)
  · exact not_blank hstate hidle hchecking hblank

/-- The worker has settled on an outcome and nothing but an install is pending. -/
theorem orderly_of_outcome (hcheck : b.pendingCheck = false) (hdownload : b.pendingDownload = false)
    (hflight : workInFlight b.state = false) (hshows : part.shows = none) :
    b.Orderly part applied := by
  have hne : ∀ state, workInFlight state = true → b.state ≠ state := by
    intro state hstate heq
    rw [heq, hstate] at hflight
    cases hflight
  constructor
  · intro hp
    exact absurd (hcheck.symm.trans hp) nofun
  · intro hp
    exact absurd (hdownload.symm.trans hp) nofun
  · intro state hstate
    exact absurd (hshows.symm.trans hstate) nofun
  · exact fun hs => absurd hs (hne _ rfl)
  · exact fun hs => absurd hs (hne _ rfl)
  · exact fun hs => absurd hs (hne _ rfl)
  · exact fun hs => absurd hs (hne _ rfl)

/-- No release is known and nothing shows. -/
theorem orderly_of_idle (hinfo : b.info = {}) (hstate : b.state = .idle)
    (hbusy : ∀ state, part.shows = some state → b.pendingDownload = false) :
    b.Orderly part applied where
  pendingCheck _ := .inr ⟨hinfo, .inl hstate⟩
  pendingDownload _ := .inr ⟨hinfo, .inl hstate⟩
  busy state hs := ⟨hbusy state hs, .inr ⟨hinfo, .inl hstate⟩⟩
  checking hs := absurd (hstate.symm.trans hs) nofun
  downloading hs := absurd (hstate.symm.trans hs) nofun
  verifying hs := absurd (hstate.symm.trans hs) nofun
  installing hs := absurd (hstate.symm.trans hs) nofun

/-- A download is queued and shows. -/
theorem orderly_of_download (hcheck : b.pendingCheck = false) (hshows : part.shows = none)
    (hstate : b.state = .downloading) (hdownload : b.pendingDownload = true) :
    b.Orderly part applied where
  pendingCheck hp := absurd (hcheck.symm.trans hp) nofun
  pendingDownload _ := .inl hstate
  busy _ hs := absurd (hshows.symm.trans hs) nofun
  checking hs := absurd (hstate.symm.trans hs) nofun
  downloading _ := .inl hdownload
  verifying hs := absurd (hstate.symm.trans hs) nofun
  installing hs := absurd (hstate.symm.trans hs) nofun

/-- An install is queued and shows. -/
theorem orderly_of_install (hcheck : b.pendingCheck = false) (hdownload : b.pendingDownload = false)
    (hshows : part.shows = none) (hstate : b.state = .installing) (hinstall : b.pendingInstall = true) :
    b.Orderly part applied where
  pendingCheck hp := absurd (hcheck.symm.trans hp) nofun
  pendingDownload hp := absurd (hdownload.symm.trans hp) nofun
  busy _ hs := absurd (hshows.symm.trans hs) nofun
  checking hs := absurd (hstate.symm.trans hs) nofun
  downloading hs := absurd (hstate.symm.trans hs) nofun
  verifying hs := absurd (hstate.symm.trans hs) nofun
  installing _ := .inl hinstall

theorem abandoned_flight (info : UpdateInfo) :
    workInFlight (if info.available then .updateAvailable else .idle) = false := by
  split <;> rfl

/-- A caller keeps the board in order, wherever the worker is. -/
theorem Orderly.acts (h : b.Orderly part applied) {i : Instr} (hacts : Acts b i d) :
    d.Orderly part applied := by
  cases hacts with
  | none => exact h
  | queueRepair _ | unstage _ | skip _ => exact { h with }
  | check repair _ hflight =>
    have hblank : ∀ state, workInFlight state = true → b.state = state ∨ b.Blank →
        b.info = {} := by
      rintro state hstate (rfl | hblank)
      · exact absurd (hflight.symm.trans hstate) nofun
      · exact hblank.1
    constructor
    · exact fun _ => .inl rfl
    · exact fun hp => .inr ⟨hblank _ rfl (h.pendingDownload hp), .inr ⟨rfl, rfl⟩⟩
    · intro state hshows
      obtain ⟨hp, hstate⟩ := h.busy state hshows
      exact ⟨hp, .inr ⟨hblank _ (Part.shows_flight hshows) hstate, .inr ⟨rfl, rfl⟩⟩⟩
    · exact fun _ => .inl rfl
    · nofun
    · nofun
    · nofun
  | offer hstate _ =>
    have hcalm := hstate.elim h.calm_at h.calm_at
    exact orderly_of_download hcalm.1 hcalm.2.2 rfl rfl
  | repair hpending hflight hversion =>
    have hblank : ¬ b.Blank := by
      rintro ⟨hinfo, -⟩
      rw [hinfo] at hversion
      exact hversion rfl
    exact orderly_of_download hpending (h.calm hflight hblank).2.2 rfl rfl
  | install hstate _ _ =>
    have hcalm := hstate.elim h.calm_at h.calm_at
    exact orderly_of_install hcalm.1 hcalm.2.1 hcalm.2.2 rfl rfl
  | cancel state hpending hstate =>
    have hshows : part.shows = none := by
      rw [Option.eq_none_iff_forall_ne_some]
      intro state hshows
      exact absurd (hpending.symm.trans (h.busy state hshows).1) Bool.noConfusion
    rcases h.pendingDownload hpending with hs | ⟨hinfo, -⟩
    · refine orderly_of_outcome (h.pendingCheck_eq hs (by decide) (by decide)) rfl ?_ hshows
      exact hstate ▸ abandoned_flight b.info
    · rw [hinfo] at hstate
      exact orderly_of_idle hinfo hstate fun _ _ => rfl
  | forget staged _ => exact orderly_of_idle rfl rfl fun state hshows => (h.busy state hshows).1

/-- Where the worker is in no part that shows, the board does not depend on the part. -/
theorem Orderly.leave (h : b.Orderly part applied) {next : Part} (hnext : next.shows = none)
    (hchecking : part = .checking → b.state = .checking → b.pendingCheck = true)
    (hdownloading : part = .loading → b.state ≠ .downloading)
    (hverifying : part = .verifying → b.state ≠ .verifying)
    (hinstalling : part = .installing → b.state = .installing →
      b.pendingInstall = true ∨ applied = true) :
    b.Orderly next applied :=
  { h with
    busy _ hs := absurd (hnext.symm.trans hs) nofun
    checking hs := (h.checking hs).elim .inl fun hpart => .inl (hchecking hpart hs)
    downloading hs := (h.downloading hs).elim .inl fun hpart => absurd hs (hdownloading hpart)
    verifying hs := absurd hs (hverifying (h.verifying hs))
    installing hs := by
      rcases h.installing hs with hp | hpart | ha
      · exact .inl hp
      · rcases hinstalling hpart hs with hp | ha
        · exact .inl hp
        · exact .inr (.inr ha)
      · exact .inr (.inr ha) }

/-- No download is pending while an install shows. -/
theorem Orderly.pendingDownload_eq (h : b.Orderly part applied) (hstate : b.state = .installing) :
    b.pendingDownload = false := by
  rw [Bool.eq_false_iff]
  intro hp
  rcases h.pendingDownload hp with hs | hblank
  · cases hstate.symm.trans hs
  · exact not_blank hstate (by decide) (by decide) hblank

/-- The installer was launched. -/
theorem Orderly.launched (h : b.Orderly .installing applied) : b.Orderly .round true :=
  { h with
    busy := nofun
    checking hs := .inl ((h.checking hs).resolve_right nofun)
    downloading hs := .inl ((h.downloading hs).resolve_right nofun)
    verifying hs := absurd (h.verifying hs) nofun
    installing _ := .inr (.inr rfl) }

/-- An outcome after the worker's own work: nothing but an install is pending. -/
theorem Orderly.outcome (h : b.Orderly part applied) {state outcome : UpdateState}
    (hown : part.own = some state) (hchecking : part ≠ .checking) (hstate : b.state = state)
    (hflight : workInFlight outcome = false) (hcheck : d.pendingCheck = b.pendingCheck)
    (hdownload : d.pendingDownload = b.pendingDownload) (houtcome : d.state = outcome) :
    d.Orderly .round applied := by
  refine orderly_of_outcome (hcheck.trans ?_) (hdownload.trans ?_) (houtcome ▸ hflight) rfl
  · cases part <;> cases hown
    · exact absurd rfl hchecking
    · exact h.pendingCheck_eq hstate (by decide) (by decide)
    · exact h.pendingCheck_eq hstate (by decide) (by decide)
    · exact h.pendingCheck_eq hstate (by decide) (by decide)
  · cases part <;> cases hown
    · exact absurd rfl hchecking
    · exact (h.busy _ rfl).1
    · exact (h.busy _ rfl).1
    · exact h.pendingDownload_eq hstate

/-- Every step of the worker keeps the board in order and leads to the part it should. -/
theorem Orderly.turn {running : Text} {h h' : History} {φ ψ : Phase}
    (ho : b.Orderly φ.part h.applied) (ht : Turn running b h φ ψ d h') :
    d.Orderly ψ.part h'.applied := by
  cases ht with
  | quiet _ hpart _ => exact hpart ▸ ho
  | readSkip cfg _ | fetched cfg info | fetchFailed cfg err | note cfg fetched | readRelease
  | stageConfig info autoInstall | applying _ => exact ho
  | loading info | verified info localPath => exact { ho with }
  | late cfg fetched ok hlate => exact ho.leave rfl (fun _ => hlate) nofun nofun nofun
  | inFlight fetched autoDownload _ => exact ho.leave rfl nofun nofun nofun nofun
  | giveWay hcheck =>
    refine ho.leave rfl nofun (fun _ hs => ?_) nofun nofun
    have hnone := ho.pendingCheck_eq hs (by decide) (by decide)
    exact Bool.false_ne_true (hnone.symm.trans hcheck)
  | missed hown hpart _ hstate =>
    have hne : ∀ part s, part.own = some s → φ.part = part → b.state ≠ s := by
      rintro _ s hs rfl
      cases hown.symm.trans hs
      exact hstate
    exact ho.leave rfl (fun hp => absurd hp hpart) (hne _ _ rfl) (hne _ _ rfl)
      fun hp hs => absurd hs (hne _ _ rfl hp)
  | takeInstall _ => exact {
      pendingCheck := ho.pendingCheck
      pendingDownload := ho.pendingDownload
      busy := nofun
      checking := fun hs => .inl ((ho.checking hs).resolve_right nofun)
      downloading := fun hs => .inl ((ho.downloading hs).resolve_right nofun)
      verifying := fun hs => absurd (ho.verifying hs) nofun
      installing := fun _ => .inr (.inl rfl) }
  | takeDownload hinstall hdownload => exact {
      pendingCheck := ho.pendingCheck
      pendingDownload := nofun
      busy := by
        rintro state ⟨⟩
        exact ⟨rfl, ho.pendingDownload hdownload⟩
      checking := fun hs => .inl ((ho.checking hs).resolve_right nofun)
      downloading := fun _ => .inr rfl
      verifying := fun hs => absurd (ho.verifying hs) nofun
      installing := fun hs => by
        rcases ho.installing hs with hp | hpart | ha
        · exact absurd (hinstall.symm.trans hp) nofun
        · cases hpart
        · exact .inr (.inr ha) }
  | takeCheck _ hdownload => exact {
      pendingCheck := nofun
      pendingDownload := fun hp => absurd (hdownload.symm.trans hp) nofun
      busy := by
        rintro state ⟨⟩
        exact ⟨hdownload, .inl rfl⟩
      checking := fun _ => .inr rfl
      downloading := nofun
      verifying := nofun
      installing := nofun }
  | settled cfg info state _ hcheck hstate =>
    refine orderly_of_outcome hcheck (ho.busy _ rfl).1 ?_ rfl
    rcases hstate with rfl | ⟨rfl, -⟩
    · exact checkedRelease_flight running cfg.skipVersion info
    · rfl
  | settledFailed cfg err state _ hcheck hstate =>
    refine orderly_of_outcome hcheck (ho.busy _ rfl).1 ?_ rfl
    rcases hstate with rfl | ⟨rfl, -⟩ | ⟨rfl, -⟩ <;> rfl
  | dropped fetched autoDownload _ =>
    have hround : Board.Orderly _ .round _ := ho.leave rfl nofun nofun nofun nofun
    exact { hround with busy := nofun }
  | queued fetched autoDownload repair hflight hwanted _ =>
    have hblank : ¬ b.Blank := by
      rcases hwanted with hs | ⟨hversion, -⟩
      · exact not_blank hs (by decide) (by decide)
      · rintro ⟨hinfo, -⟩
        rw [hinfo] at hversion
        exact hversion rfl
    exact orderly_of_download (ho.calm hflight hblank).1 rfl rfl rfl
  | abandoned state hcheck hstate =>
    exact orderly_of_outcome hcheck (ho.busy _ rfl).1 (hstate ▸ abandoned_flight b.info) rfl
  | begun hcheck _ => exact {
      pendingCheck := fun hp => absurd (hcheck.symm.trans hp) nofun
      pendingDownload := fun _ => .inl rfl
      busy := by
        rintro state ⟨⟩
        exact ⟨(ho.busy _ rfl).1, .inl rfl⟩
      checking := nofun
      downloading := fun _ => .inr rfl
      verifying := nofun
      installing := nofun }
  | cancelled state hs hstate =>
    exact ho.outcome (show Part.own .loading = some .downloading from rfl) nofun hs
      (abandoned_flight b.info) rfl rfl hstate
  | enterVerifying localPath hs =>
    have hcheck := ho.pendingCheck_eq hs (by decide) (by decide)
    have hdownload := (ho.busy _ rfl).1
    exact {
      pendingCheck := fun hp => absurd (hcheck.symm.trans hp) nofun
      pendingDownload := fun hp => absurd (hdownload.symm.trans hp) nofun
      busy := by
        rintro state ⟨⟩
        exact ⟨hdownload, .inl rfl⟩
      checking := nofun
      downloading := nofun
      verifying := fun _ => rfl
      installing := nofun }
  | staged info autoInstall hs =>
    exact ho.outcome (show Part.own .verifying = some .verifying from rfl) nofun hs rfl rfl rfl rfl
  | stagedInstall info autoInstall hs =>
    exact orderly_of_install (ho.pendingCheck_eq hs (by decide) (by decide)) (ho.busy _ rfl).1
      rfl rfl rfl
  | failed hown hpart _ hs => exact ho.outcome hown hpart hs rfl rfl rfl rfl
  | launched info localPath => exact ho.launched

end Board

/-! ## The whole service -/

/-- No caller launches an installer. -/
theorem History.applied_note {i : Instr} {r : i.Answer} {h : History} (hi : i.byCaller = true) :
    (h.note i r).applied = h.applied := by
  cases i <;> first | rfl | cases hi

/-- The invariant of the whole service. -/
structure Steered (running : Text) (φ : Phase) (s : UpdateService × History) : Prop where
  orderly : s.1.board.Orderly φ.part s.2.applied
  inJob : φ.InJob running

theorem steered_init (running : Text) (config : Config) :
    Steered running .idle ({ config := config }, {}) :=
  ⟨Board.orderly_of_idle rfl rfl nofun, nofun⟩

theorem Steered.start {running : Text} {s : UpdateService × History}
    (h : Steered running .idle s) : Steered running .stopping s :=
  ⟨h.orderly, nofun⟩

theorem steered (running : Text) :
    System.Outline (watched running) .worker (worker running) (fun i => i.byCaller = true)
      (Steered running) where
  init s hs := by
    obtain ⟨s, h⟩ := s
    obtain ⟨⟨config, rfl⟩, rfl⟩ := hs
    exact ⟨.idle, rfl, steered_init running config⟩
  start φ s p hmove hI hp := by
    obtain rfl := Phase.eq_idle_of_move hmove
    exact ⟨.stopping, hp.symm, hI.start⟩
  move φ i next s r u hmove hI hstep := by
    refine ⟨?_, hI.inJob.move hmove r⟩
    rw [hstep.2]
    exact hI.orderly.turn (Phase.turn hmove hstep.1)
  others := callers_only
  keep φ t i s r u _ hi hI hstep := by
    refine ⟨?_, hI.inJob⟩
    rw [hstep.2, History.applied_note hi]
    exact hI.orderly.acts (acts_of_step hi hstep.1)

end Satellite.Update
