import FeatureFlow.Proofs.Engine.Fetches

/-!
# Who holds the barriers

Only the one who holds the job of a barrier can cancel it. That is the engine, a start that
has not returned, or whoever waits for the report. `Custody.Step` says what one step can do
to the barriers and to those who hold them. No barrier is ever without a holder
(`Sound.step`), and no session reports later but those that may now and those that are
begun in the meantime (`leads_step`).
-/

namespace FeatureFlow

-- ---------------------------------------------------------------------------
-- Barriers and their jobs
-- ---------------------------------------------------------------------------

structure Barrier where
  job : Nat
  session : Nat

def Job.barrier? (job : Job) : Option Barrier :=
  job.work.polled?.map fun session => { job := job.number, session }

theorem Job.barrier?_eq_some {job : Job} {b : Barrier} :
    job.barrier? = some b ↔ job.work.polled? = some b.session ∧ job.number = b.job := by
  obtain ⟨number, session⟩ := b
  simp [Job.barrier?, and_comm]

namespace Schedule

variable {s t : Schedule}

def barriers (s : Schedule) : List Barrier :=
  s.jobs.filterMap Job.barrier?

theorem mem_barriers {b : Barrier} :
    b ∈ s.barriers ↔ ∃ job ∈ s.jobs, job.work.polled? = some b.session ∧ job.number = b.job := by
  simp only [barriers, List.mem_filterMap, Job.barrier?_eq_some]

theorem barriers_spawn (s : Schedule) (work : Work) :
    (s.spawn work).1.barriers.Perm
      ((work.polled?.map fun session => ⟨s.next, session⟩).toList ++ s.barriers) := by
  refine ((jobs_enqueue s { number := s.next, work }).filterMap _).trans ?_
  cases hwork : work.polled? <;> simp [Job.barrier?, hwork, barriers]

theorem barriers_spawnFetch (session : Nat) (s : Schedule) (wanted : Sync.Wanted) :
    (spawnFetch session s wanted).barriers.Perm s.barriers :=
  (barriers_spawn _ _).trans (barriers_spawn s _)

theorem mem_barriers_cancelBarrier {kept : Option Nat} {b : Barrier} :
    b ∈ (Engine.cancelBarrier s kept).barriers ↔ b ∈ s.barriers ∧ kept ≠ some b.job := by
  cases kept with
  | none => simp [Engine.cancelBarrier]
  | some number =>
    simp only [Engine.cancelBarrier, mem_barriers, jobs_cancel, List.mem_filter]
    constructor
    · rintro ⟨job, ⟨hjob, hother⟩, hsession, hnumber⟩
      refine ⟨⟨job, hjob, hsession, hnumber⟩, fun heq => ?_⟩
      simp [hnumber, Option.some.inj heq] at hother
    · rintro ⟨⟨job, hjob, hsession, hnumber⟩, hne⟩
      refine ⟨job, ⟨hjob, ?_⟩, hsession, hnumber⟩
      simpa [hnumber] using fun heq : b.job = number => hne (congrArg some heq.symm)

theorem next_cancelBarrier (s : Schedule) (kept : Option Nat) :
    (Engine.cancelBarrier s kept).next = s.next := by
  cases kept <;> rfl

theorem sent_cancelBarrier (s : Schedule) (kept : Option Nat) :
    (Engine.cancelBarrier s kept).sent = s.sent := by
  cases kept <;> rfl

theorem barriers_step (hjob : s.queue[index]? = some job) :
    (s.step job (s.queue.eraseIdx index)).barriers ⊆ s.barriers := by
  intro b hb
  obtain ⟨new, hnew, hsession, hnumber⟩ := mem_barriers.mp hb
  obtain ⟨old, hold, hsame, hpolled⟩ := origin_step hjob new hnew
  exact mem_barriers.mpr ⟨old, hold, hpolled ▸ hsession, hsame.trans hnumber⟩

theorem length_step (s : Schedule) (job : Job) (rest : List Job) :
    (s.step job rest).sync.sessions.length = s.sync.sessions.length := by
  obtain ⟨o, hran, hafter⟩ := s.ran_step job rest
  exact (congrArg (·.sessions.length) hafter.sync).trans hran.length

end Schedule

theorem Conversation.polled?_of_newlyOwed {work : Work} {before after : Schedule} {x : Owed}
    (h : x ∈ newlyOwed work before after) : work.polled? = some x.session := by
  unfold newlyOwed at h
  split at h
  · cases h
  · rename_i session hpolled
    obtain ⟨m, -, hready⟩ := List.mem_filterMap.mp h
    obtain ⟨ready, -, rfl⟩ := Option.map_eq_some_iff.mp hready
    exact hpolled

theorem Conversation.ready_newlyOwed {work : Work} {before after : Schedule}
    (hsent : after.sent = before.sent ++ new) (hquiet : work.polled? = none → new = []) :
    (newlyOwed work before after).map (·.ready) = new.filterMap (·.ready?) := by
  unfold newlyOwed
  split
  · rename_i hnone
    rw [hquiet hnone]
    rfl
  · rw [hsent, List.drop_left, List.map_filterMap]
    simp [Option.map_map, Function.comp_def]

-- ---------------------------------------------------------------------------
-- Who holds the barriers
-- ---------------------------------------------------------------------------

/-- A start that has its barrier, if there is anything to wait for, and is about to hand
it over to the engine. -/
structure Handover where
  session : Nat
  barrier : Option Nat
deriving DecidableEq

/-- The barriers that have not reported, and those who hold them. -/
structure Custody where
  barriers : List Barrier
  /-- The number of the next job. -/
  next : Nat
  /-- How many sessions were begun. -/
  begun : Nat
  /-- The barrier that the engine keeps. -/
  kept : Option Nat
  /-- The sessions of the starts that are still setting up. -/
  setups : List Nat
  handovers : List Handover
  taken : List Nat

namespace Custody

/-- The sessions of the starts that have not returned. -/
def underway (k : Custody) : List Nat :=
  k.setups ++ k.handovers.map Handover.session

def takenSessions (k : Custody) : List Nat :=
  (k.barriers.filter (·.job ∈ k.taken)).map Barrier.session

/-- The sessions that may still report. -/
def pending (k : Custody) : List Nat :=
  k.setups ++ k.barriers.map Barrier.session

/-- What a step can do, by whether a start is called, with the sessions that report. -/
inductive Step (k : Custody) : Bool → List Nat → Custody → Prop
  | goesOn (hleft : left ⊆ k.barriers) (hnext : k.next ≤ number)
      (hsent : sent ⊆ k.barriers.map Barrier.session) :
      Step k false sent { k with barriers := left, next := number }
  | begins : Step k true [] { k with begun := k.begun + 1, setups := k.setups ++ [k.begun] }
  | settles (hsetups : k.setups.Perm (session :: others))
      (hleft : left ⊆ ⟨k.next, session⟩ :: k.barriers) :
      Step k false []
        { k with
          barriers := left, next := k.next + 1, setups := others
          handovers := k.handovers ++ [⟨session, some k.next⟩] }
  | finishes (hsetups : k.setups.Perm (session :: others)) :
      Step k false []
        { k with setups := others, handovers := k.handovers ++ [⟨session, none⟩] }
  | returns (hhandovers : k.handovers.Perm (handover :: others))
      (hleft : ∀ b ∈ left, b ∈ k.barriers ∧ k.kept ≠ some b.job) :
      Step k false []
        { k with barriers := left, kept := handover.barrier, handovers := others }
  | takes : Step k false [] { k with kept := none, taken := k.taken ++ k.kept.toList }
  | stops (hleft : ∀ b ∈ left, b ∈ k.barriers ∧ k.kept ≠ some b.job) :
      Step k false [] { k with barriers := left, kept := none }

/-- Each barrier is held by the engine, by a start that has not returned, or by those who
wait for its report. -/
structure Sound (k : Custody) : Prop where
  numbered : ∀ b ∈ k.barriers, b.job < k.next
  held : ∀ b ∈ k.barriers, k.kept = some b.job ∨
    (∃ handover ∈ k.handovers, handover.barrier = some b.job) ∨ b.job ∈ k.taken
  begun : ∀ n ∈ k.underway, n < k.begun
  given : ∀ handover ∈ k.handovers, ∀ job, handover.barrier = some job → job < k.next
  own : ∀ handover ∈ k.handovers, ∀ b ∈ k.barriers, handover.barrier = some b.job →
    b.session = handover.session

variable {k l m : Custody}

/-- Unless the engine keeps its barrier, a session that may report has a barrier that was
taken, or belongs to a start that has not returned. -/
theorem Sound.of_pending (h : k.Sound) (hn : n ∈ k.pending) :
    (∃ b ∈ k.barriers, k.kept = some b.job ∧ b.session = n) ∨
      n ∈ k.takenSessions ∨ n ∈ k.underway := by
  rcases List.mem_append.mp hn with hsetup | hbarrier
  · exact .inr (.inr (List.mem_append_left _ hsetup))
  obtain ⟨b, hb, rfl⟩ := List.mem_map.mp hbarrier
  rcases h.held b hb with hkept | ⟨handover, hmem, hjob⟩ | htaken
  · exact .inl ⟨b, hb, hkept, rfl⟩
  · rw [h.own handover hmem b hb hjob]
    exact .inr (.inr (List.mem_append_right _ (List.mem_map_of_mem hmem)))
  · exact .inr (.inl (List.mem_map_of_mem (List.mem_filter.mpr ⟨hb, by simpa using htaken⟩)))

theorem underway_settled (hsetups : k.setups.Perm (session :: others)) (barrier : Option Nat) :
    ({ k with setups := others, handovers := k.handovers ++ [⟨session, barrier⟩] } :
      Custody).underway ⊆ k.underway := by
  have hothers : others ⊆ k.setups := fun n hn =>
    hsetups.mem_iff.mpr (List.mem_cons_of_mem session hn)
  have hsession : session ∈ k.setups := hsetups.mem_iff.mpr List.mem_cons_self
  intro n hn
  simp only [underway, List.map_append, List.mem_append, List.map_cons, List.map_nil,
    List.mem_singleton] at hn
  rcases hn with hold | hreturning | rfl
  · exact List.mem_append_left _ (hothers hold)
  · exact List.mem_append_right _ hreturning
  · exact List.mem_append_left _ hsession

theorem Sound.goesOn (h : k.Sound) (hleft : left ⊆ k.barriers) (hnext : k.next ≤ number) :
    ({ k with barriers := left, next := number } : Custody).Sound where
  numbered b hb := Nat.lt_of_lt_of_le (h.numbered b (hleft hb)) hnext
  held b hb := h.held b (hleft hb)
  begun := h.begun
  given handover hmem job hjob := Nat.lt_of_lt_of_le (h.given handover hmem job hjob) hnext
  own handover hmem b hb := h.own handover hmem b (hleft hb)

theorem Sound.begins (h : k.Sound) :
    ({ k with begun := k.begun + 1, setups := k.setups ++ [k.begun] } : Custody).Sound := by
  refine ⟨h.numbered, h.held, fun n hn => ?_, h.given, h.own⟩
  simp only [underway, List.append_assoc, List.mem_append, List.mem_singleton] at hn
  rcases hn with hold | rfl | hreturning
  · exact Nat.lt_succ_of_lt (h.begun n (List.mem_append_left _ hold))
  · exact Nat.lt_succ_self _
  · exact Nat.lt_succ_of_lt (h.begun n (List.mem_append_right _ hreturning))

theorem Sound.settles (h : k.Sound) (hsetups : k.setups.Perm (session :: others))
    (hleft : left ⊆ ⟨k.next, session⟩ :: k.barriers) :
    ({ k with
      barriers := left, next := k.next + 1, setups := others
      handovers := k.handovers ++ [⟨session, some k.next⟩] } : Custody).Sound := by
  have hnew : ∀ b ∈ left, b ∈ k.barriers ∨ b = ⟨k.next, session⟩ := fun b hb =>
    (List.mem_cons.mp (hleft hb)).symm
  constructor
  case numbered =>
    intro b hb
    rcases hnew b hb with hold | rfl
    · exact Nat.lt_succ_of_lt (h.numbered b hold)
    · exact Nat.lt_succ_self _
  case held =>
    intro b hb
    rcases hnew b hb with hold | rfl
    · rcases h.held b hold with hkept | ⟨handover, hmem, hjob⟩ | htaken
      · exact .inl hkept
      · exact .inr (.inl ⟨handover, List.mem_append_left _ hmem, hjob⟩)
      · exact .inr (.inr htaken)
    · exact .inr (.inl ⟨_, List.mem_append_right _ (List.mem_singleton.mpr rfl), rfl⟩)
  case begun => exact fun n hn => h.begun n (underway_settled hsetups (some k.next) hn)
  case given =>
    intro handover hmem job hjob
    rcases List.mem_append.mp hmem with hold | hlast
    · exact Nat.lt_succ_of_lt (h.given handover hold job hjob)
    · obtain rfl := List.mem_singleton.mp hlast
      exact Option.some.inj hjob ▸ Nat.lt_succ_self _
  case own =>
    -- the new barrier has a number that nothing else has
    intro handover hmem b hb hjob
    rcases List.mem_append.mp hmem with hold | hlast
    · rcases hnew b hb with hbefore | rfl
      · exact h.own handover hold b hbefore hjob
      · exact absurd (h.given handover hold _ hjob) (Nat.lt_irrefl _)
    · obtain rfl := List.mem_singleton.mp hlast
      rcases hnew b hb with hbefore | rfl
      · exact absurd (h.numbered b hbefore) (Option.some.inj hjob ▸ Nat.lt_irrefl _)
      · rfl

theorem Sound.finishes (h : k.Sound) (hsetups : k.setups.Perm (session :: others)) :
    ({ k with setups := others, handovers := k.handovers ++ [⟨session, none⟩] } :
      Custody).Sound := by
  have hbefore {handover job} (hmem : handover ∈ k.handovers ++ [⟨session, none⟩])
      (hjob : handover.barrier = some job) : handover ∈ k.handovers := by
    rcases List.mem_append.mp hmem with hold | hlast
    · exact hold
    · obtain rfl := List.mem_singleton.mp hlast
      cases hjob
  constructor
  case numbered => exact h.numbered
  case held =>
    intro b hb
    rcases h.held b hb with hkept | ⟨handover, hmem, hjob⟩ | htaken
    · exact .inl hkept
    · exact .inr (.inl ⟨handover, List.mem_append_left _ hmem, hjob⟩)
    · exact .inr (.inr htaken)
  case begun => exact fun n hn => h.begun n (underway_settled hsetups none hn)
  case given =>
    exact fun handover hmem job hjob => h.given handover (hbefore hmem hjob) job hjob
  case own => exact fun handover hmem b hb hjob => h.own handover (hbefore hmem hjob) b hb hjob

theorem Sound.returns (h : k.Sound) (hhandovers : k.handovers.Perm (returned :: others))
    (hleft : ∀ b ∈ left, b ∈ k.barriers ∧ k.kept ≠ some b.job) :
    ({ k with barriers := left, kept := returned.barrier, handovers := others } :
      Custody).Sound := by
  have hothers {handover} (hmem : handover ∈ others) : handover ∈ k.handovers :=
    hhandovers.mem_iff.mpr (List.mem_cons_of_mem _ hmem)
  constructor
  case numbered => exact fun b hb => h.numbered b (hleft b hb).1
  case held =>
    intro b hb
    obtain ⟨hold, hne⟩ := hleft b hb
    rcases h.held b hold with hkept | ⟨handover, hmem, hjob⟩ | htaken
    · exact absurd hkept hne
    · rcases List.mem_cons.mp (hhandovers.mem_iff.mp hmem) with rfl | hrest
      · exact .inl hjob
      · exact .inr (.inl ⟨handover, hrest, hjob⟩)
    · exact .inr (.inr htaken)
  case begun =>
    intro n hn
    rcases List.mem_append.mp hn with hsetup | hrest
    · exact h.begun n (List.mem_append_left _ hsetup)
    · obtain ⟨handover, hmem, rfl⟩ := List.mem_map.mp hrest
      exact h.begun _ (List.mem_append_right _ (List.mem_map_of_mem (hothers hmem)))
  case given => exact fun handover hmem => h.given handover (hothers hmem)
  case own => exact fun handover hmem b hb => h.own handover (hothers hmem) b (hleft b hb).1

theorem Sound.takes (h : k.Sound) :
    ({ k with kept := none, taken := k.taken ++ k.kept.toList } : Custody).Sound := by
  refine ⟨h.numbered, fun b hb => ?_, h.begun, h.given, h.own⟩
  rcases h.held b hb with hkept | hreturning | htaken
  · exact .inr (.inr (List.mem_append_right _ (by simp [hkept])))
  · exact .inr (.inl hreturning)
  · exact .inr (.inr (List.mem_append_left _ htaken))

theorem Sound.stops (h : k.Sound) (hleft : ∀ b ∈ left, b ∈ k.barriers ∧ k.kept ≠ some b.job) :
    ({ k with barriers := left, kept := none } : Custody).Sound where
  numbered b hb := h.numbered b (hleft b hb).1
  held b hb := .inr ((h.held b (hleft b hb).1).resolve_left (hleft b hb).2)
  begun := h.begun
  given := h.given
  own handover hmem b hb := h.own handover hmem b (hleft b hb).1

theorem Sound.step (h : k.Sound) (hstep : k.Step starts reporting l) : l.Sound := by
  cases hstep with
  | goesOn hleft hnext => exact h.goesOn hleft hnext
  | begins => exact h.begins
  | settles hsetups hleft => exact h.settles hsetups hleft
  | finishes hsetups => exact h.finishes hsetups
  | returns hhandovers hleft => exact h.returns hhandovers hleft
  | takes => exact h.takes
  | stops hleft => exact h.stops hleft

theorem begun_step (hstep : k.Step false reporting l) : l.begun = k.begun := by
  cases hstep <;> rfl

-- ---------------------------------------------------------------------------
-- Who may still report
-- ---------------------------------------------------------------------------

/-- Whatever goes on, only sessions report that may or that are begun in the meantime. -/
structure Leads (k : Custody) (reporting : List Nat) (l : Custody) : Prop where
  begun : k.begun ≤ l.begun
  pending : ∀ n ∈ l.pending, n ∈ k.pending ∨ k.begun ≤ n ∧ n < l.begun
  reports : ∀ n ∈ reporting, n ∈ k.pending ∨ k.begun ≤ n ∧ n < l.begun

theorem Leads.refl (k : Custody) : k.Leads [] k :=
  ⟨Nat.le_refl _, fun _ => .inl, fun _ hn => nomatch hn⟩

theorem Leads.trans (hkl : k.Leads reporting l) (hlm : l.Leads more m) :
    k.Leads (reporting ++ more) m := by
  have hlater {n : Nat} (hn : n ∈ k.pending ∨ k.begun ≤ n ∧ n < l.begun) :
      n ∈ k.pending ∨ k.begun ≤ n ∧ n < m.begun :=
    hn.imp_right fun ⟨hle, hlt⟩ => ⟨hle, Nat.lt_of_lt_of_le hlt hlm.begun⟩
  have hback {n : Nat} (hn : n ∈ l.pending ∨ l.begun ≤ n ∧ n < m.begun) :
      n ∈ k.pending ∨ k.begun ≤ n ∧ n < m.begun := by
    rcases hn with hpending | ⟨hle, hlt⟩
    · exact hlater (hkl.pending n hpending)
    · exact .inr ⟨Nat.le_trans hkl.begun hle, hlt⟩
  constructor
  case begun => exact Nat.le_trans hkl.begun hlm.begun
  case pending => exact fun n hn => hback (hlm.pending n hn)
  case reports =>
    intro n hn
    rcases List.mem_append.mp hn with hfirst | hthen
    · exact hlater (hkl.reports n hfirst)
    · exact hback (hlm.reports n hthen)

theorem leads_of_subset (hbegun : l.begun = k.begun) (hsetups : l.setups ⊆ k.pending)
    (hbarriers : ∀ b ∈ l.barriers, b.session ∈ k.pending)
    (hreporting : reporting ⊆ k.pending) : k.Leads reporting l := by
  refine ⟨Nat.le_of_eq hbegun.symm, fun n hn => .inl ?_, fun n hn => .inl (hreporting hn)⟩
  rcases List.mem_append.mp hn with hsetup | hbarrier
  · exact hsetups hsetup
  · obtain ⟨b, hb, rfl⟩ := List.mem_map.mp hbarrier
    exact hbarriers b hb

theorem leads_step (hstep : k.Step starts reporting l) : k.Leads reporting l := by
  have hsetups : k.setups ⊆ k.pending := List.subset_append_left ..
  have hbarriers : k.barriers.map Barrier.session ⊆ k.pending := List.subset_append_right ..
  have hpending {b : Barrier} (hb : b ∈ k.barriers) : b.session ∈ k.pending :=
    hbarriers (List.mem_map_of_mem hb)
  cases hstep with
  | goesOn hleft hnext hsent =>
    exact leads_of_subset rfl hsetups (fun b hb => hpending (hleft hb))
      (List.Subset.trans hsent hbarriers)
  | begins =>
    refine ⟨Nat.le_succ _, fun n hn => ?_, fun n hn => nomatch hn⟩
    simp only [pending, List.append_assoc, List.mem_append, List.mem_singleton] at hn ⊢
    rcases hn with hsetup | rfl | hbarrier
    · exact .inl (.inl hsetup)
    · exact .inr ⟨Nat.le_refl _, Nat.lt_succ_self _⟩
    · exact .inl (.inr hbarrier)
  | settles hperm hleft =>
    refine leads_of_subset rfl ?_ (fun b hb => ?_) (List.nil_subset _)
    · exact fun n hn => hsetups (hperm.mem_iff.mpr (List.mem_cons_of_mem _ hn))
    · rcases List.mem_cons.mp (hleft hb) with rfl | hold
      · exact hsetups (hperm.mem_iff.mpr List.mem_cons_self)
      · exact hpending hold
  | finishes hperm =>
    refine leads_of_subset rfl ?_ (fun b hb => hpending hb) (List.nil_subset _)
    exact fun n hn => hsetups (hperm.mem_iff.mpr (List.mem_cons_of_mem _ hn))
  | returns hhandovers hleft | stops hleft =>
    exact leads_of_subset rfl hsetups (fun b hb => hpending (hleft b hb).1) (List.nil_subset _)
  | takes => exact leads_of_subset rfl hsetups (fun b hb => hpending hb) (List.nil_subset _)

end Custody

end FeatureFlow
