import FeatureFlow.Proofs.Engine.Clock
import FeatureFlow.Proofs.Engine.Fetches

/-!
# Polling for readiness

A barrier looks at its session, sleeps and looks again, until the session is complete or the
sleeps add up to the ceiling, and then it reports. Whatever else goes on in the schedule, its looks
follow one another as in `Course` (`course_of_awaits`), and there are only so many of them.
-/

namespace FeatureFlow

namespace BarrierTiming

/-- How long a barrier has waited before it looks for the time with this number. -/
def waitedAt (timing : BarrierTiming) (k : Nat) : Nat :=
  min (k * timing.tick) timing.ceiling

/-- How many ticks it takes to wait for the ceiling; the last one may be cut short. -/
def naps (timing : BarrierTiming) : Nat :=
  (timing.ceiling + timing.tick - 1) / timing.tick

variable {timing : BarrierTiming} {k : Nat}

theorem waitedAt_zero (timing : BarrierTiming) : timing.waitedAt 0 = 0 := by
  simp [waitedAt]

theorem waitedAt_le (timing : BarrierTiming) (k : Nat) : timing.waitedAt k ≤ timing.ceiling :=
  Nat.min_le_right ..

theorem waitedAt_of_lt (h : timing.waitedAt k < timing.ceiling) :
    timing.waitedAt k = k * timing.tick := by
  unfold waitedAt at h ⊢
  omega

theorem waitedAt_succ (h : timing.waitedAt k < timing.ceiling) :
    timing.waitedAt k + min timing.tick (timing.ceiling - timing.waitedAt k) =
      timing.waitedAt (k + 1) := by
  have hwaited := waitedAt_of_lt h
  rw [hwaited] at h ⊢
  rw [waitedAt, Nat.succ_mul]
  omega

theorem waitedAt_lt_iff : timing.waitedAt k < timing.ceiling ↔ k < timing.naps := by
  have htick := timing.tick_pos
  rw [naps, Nat.lt_div_iff_mul_lt htick, waitedAt, Nat.mul_comm]
  generalize timing.tick * k = waited
  omega

end BarrierTiming

namespace Schedule

-- ---------------------------------------------------------------------------
-- Looks
-- ---------------------------------------------------------------------------

/-- A turn of a barrier: how long it has waited until then, and what the turn changes. -/
structure Look where
  waited : Nat
  before : Schedule
  after : Schedule

def look? (s : Schedule) (number : Nat) (event : Event) : Option Look :=
  match event with
  | .turn index =>
    match s.queue[index]? with
    | some { number := other, work := .poll _ waited } =>
      if other = number then some { waited, before := s, after := s.handle event } else none
    | _ => none
  | _ => none

def looks (number : Nat) : Schedule → List Event → List Look
  | _, [] => []
  | s, event :: rest => (s.look? number event).toList ++ looks number (s.handle event) rest

/-- The session is not complete and there is time left, so nothing happens. -/
structure Look.Naps (timing : BarrierTiming) (session : Nat) (look : Look) : Prop where
  incomplete : look.before.sync.isComplete session = false
  early : look.waited < timing.ceiling
  sync : look.after.sync = look.before.sync
  sent : look.after.sent = look.before.sent

/-- The session is complete or the ceiling is reached, and the session is reported. -/
structure Look.Reports (timing : BarrierTiming) (session : Nat) (look : Look) : Prop where
  due : look.before.sync.isComplete session = true ∨ look.waited = timing.ceiling
  sync : look.after.sync = (look.before.sync.report session).state
  sent : look.after.sent = look.before.sent ++ (look.before.sync.report session).sent

/-- A barrier is pending that began at a moment and looks for the time with this number. -/
def Awaits (timing : BarrierTiming) (session start number k : Nat) (s : Schedule) : Prop :=
  s.agendaOf number =
    [(start + timing.waitedAt k, { number, work := .poll session (timing.waitedAt k) })]

/-- The looks of a barrier from the one with this number on, until the schedule is as it is. -/
inductive Course (timing : BarrierTiming) (session start number : Nat) :
    Nat → List Look → Schedule → Prop
  | waits (h : Awaits timing session start number k t) :
      Course timing session start number k [] t
  | naps (hwaited : look.waited = timing.waitedAt k)
      (hmoment : look.before.now = start + look.waited) (hnaps : look.Naps timing session)
      (hrest : Course timing session start number (k + 1) rest t) :
      Course timing session start number k (look :: rest) t
  | reports (hwaited : look.waited = timing.waitedAt k)
      (hmoment : look.before.now = start + look.waited) (hreports : look.Reports timing session)
      (hgone : t.agendaOf number = []) : Course timing session start number k [look] t

variable {s t : Schedule} {timing : BarrierTiming} {session start number k index : Nat} {job : Job}

-- ---------------------------------------------------------------------------
-- Events of others
-- ---------------------------------------------------------------------------

theorem agendaOf_perm (h : t.agenda.Perm s.agenda) (number : Nat) :
    (t.agendaOf number).Perm (s.agendaOf number) :=
  h.filter _

theorem agendaOf_cons (h : t.agenda.Perm ((moment, job) :: s.agenda)) (hne : job.number ≠ number) :
    (t.agendaOf number).Perm (s.agendaOf number) := by
  refine (h.filter _).trans (.of_eq ?_)
  exact List.filter_cons_of_neg (by simpa using hne)

theorem agendaOf_spawn (s : Schedule) (work : Work) (hnumber : number < s.next) :
    ((s.spawn work).1.agendaOf number).Perm (s.agendaOf number) :=
  agendaOf_cons (agenda_enqueue s { number := s.next, work }) (Nat.ne_of_gt hnumber)

theorem agendaOf_spawnFetches (session : Nat) (wanted : List Sync.Wanted) (s : Schedule)
    (hnumber : number < s.next) :
    ((wanted.foldl (spawnFetch session) s).agendaOf number).Perm (s.agendaOf number) ∧
      s.next ≤ (wanted.foldl (spawnFetch session) s).next := by
  induction wanted generalizing s with
  | nil => exact ⟨.refl _, Nat.le_refl _⟩
  | cons w rest ih =>
    obtain ⟨hrest, hnext⟩ := ih (spawnFetch session s w) (by simp only [spawnFetch, spawn]; omega)
    have hcleanUp := s.agendaOf_spawn (.cleanUp w false) hnumber
    have hfetch := agendaOf_spawn (s.spawn (.cleanUp w false)).1 (.beginFetch session w)
      (Nat.lt_succ_of_lt hnumber)
    refine ⟨hrest.trans (hfetch.trans hcleanUp), Nat.le_trans ?_ hnext⟩
    simp only [spawnFetch, spawn]
    omega

theorem agendaOf_setup (s : Schedule) (toggles : List Toggle) (hnumber : number < s.next) :
    ((s.setup toggles).1.agendaOf number).Perm (s.agendaOf number) ∧
      s.next ≤ (s.setup toggles).1.next := by
  unfold setup
  generalize s.sync.setup toggles = begun
  obtain ⟨sync, started⟩ := begun
  obtain ⟨hfetches, hnext⟩ :=
    agendaOf_spawnFetches started.session started.wanted { s with sync } hnumber
  dsimp only
  cases started.barrier with
  | false => exact ⟨hfetches, hnext⟩
  | true =>
    exact ⟨(agendaOf_spawn _ _ (Nat.lt_of_lt_of_le hnumber hnext)).trans hfetches,
      Nat.le_succ_of_le hnext⟩

theorem agendaOf_step (hjob : s.queue[index]? = some job) (hne : job.number ≠ number) :
    ((s.step job (s.queue.eraseIdx index)).agendaOf number).Perm (s.agendaOf number) := by
  have hstep := agenda_step s job (s.queue.eraseIdx index)
  have htaken := agendaOf_cons (agenda_take hjob) hne
  dsimp only at hstep
  generalize (({ s with queue := s.queue.eraseIdx index } : Schedule).turn job.work).2 = result
    at hstep
  refine .trans ?_ htaken.symm
  cases hleft : result.left? with
  | none =>
    rw [remainder, hleft] at hstep
    exact agendaOf_perm hstep number
  | some left =>
    rw [remainder, hleft] at hstep
    exact agendaOf_cons hstep hne

theorem agendaOf_cancel_of_ne (s : Schedule) {other : Nat} (hne : other ≠ number) :
    (s.cancel other).agendaOf number = s.agendaOf number := by
  rw [agendaOf, agenda_cancel, List.filter_filter, agendaOf]
  refine List.filter_congr fun entry _ => ?_
  by_cases h : entry.2.number = number
  · simp [h, Ne.symm hne]
  · simp [h]

theorem agendaOf_handle (hnumber : number < s.next) {event : Event}
    (hkept : event ≠ .cancel number)
    (hother : ∀ index job, event = .turn index → s.queue[index]? = some job →
      job.number ≠ number) :
    ((s.handle event).agendaOf number).Perm (s.agendaOf number) := by
  cases event with
  | turn index =>
    simp only [handle]
    split
    · exact .refl _
    · rename_i job hjob
      exact agendaOf_step hjob (hother index job rfl hjob)
  | elapse moment =>
    simp only [handle]
    split
    · rename_i hmay
      exact agendaOf_perm (.of_eq (agenda_moveTo hmay)) number
    · exact .refl _
  | act f => exact .refl _
  | setup toggles => exact (s.agendaOf_setup toggles hnumber).1
  | cancel other =>
    refine .of_eq (s.agendaOf_cancel_of_ne fun heq => hkept ?_)
    rw [heq]
  | refetch fetcher => exact .refl _

theorem lt_next_handle (hnumber : number < s.next) (event : Event) :
    number < (s.handle event).next := by
  cases event with
  | turn index =>
    simp only [handle]
    split
    · exact hnumber
    · rw [next_step]
      exact hnumber
  | elapse moment =>
    simp only [handle]
    split <;> exact hnumber
  | act f => exact hnumber
  | setup toggles => exact Nat.lt_of_lt_of_le hnumber (s.agendaOf_setup toggles hnumber).2
  | cancel other => exact hnumber
  | refetch fetcher => exact hnumber

-- ---------------------------------------------------------------------------
-- Turns of the barrier
-- ---------------------------------------------------------------------------

theorem Awaits.mem_agenda (h : Awaits timing session start number k s) :
    (start + timing.waitedAt k, { number, work := .poll session (timing.waitedAt k) }) ∈ s.agenda :=
  List.mem_of_mem_filter (h ▸ List.mem_singleton.mpr rfl)

theorem Awaits.takes (h : Awaits timing session start number k s)
    (hjob : s.queue[index]? = some job) (hnumber : job.number = number) :
    s.now = start + timing.waitedAt k ∧
      job = { number, work := .poll session (timing.waitedAt k) } ∧
      ({ s with queue := s.queue.eraseIdx index } : Schedule).agendaOf number = [] := by
  have htaken := (agenda_take hjob).filter (·.2.number = number)
  rw [List.filter_cons_of_pos (by simpa using hnumber), ← agendaOf, h] at htaken
  obtain ⟨hentry, hrest⟩ := List.cons.inj (List.singleton_perm.mp htaken)
  obtain ⟨hnow, hjob⟩ := Prod.mk.inj hentry
  exact ⟨hnow.symm, hjob.symm, hrest.symm⟩

theorem Awaits.turn (h : Awaits timing session start number k s) (hs : Timely timing s)
    (hjob : s.queue[index]? = some job) (hnumber : job.number = number) :
    let look : Look :=
      { waited := timing.waitedAt k, before := s, after := s.handle (.turn index) }
    s.look? number (.turn index) = some look ∧ s.now = start + look.waited ∧
      (look.Naps timing session ∧
          Awaits timing session start number (k + 1) (s.handle (.turn index)) ∨
        look.Reports timing session ∧ (s.handle (.turn index)).agendaOf number = []) := by
  obtain ⟨hnow, rfl, hrest⟩ := h.takes hjob hnumber
  have hlook : s.look? number (.turn index) = some
      { waited := timing.waitedAt k, before := s, after := s.handle (.turn index) } := by
    simp [look?, hjob]
  refine ⟨hlook, hnow, ?_⟩
  have hstep : s.handle (.turn index) = s.step { number, work := .poll session (timing.waitedAt k) }
      (s.queue.eraseIdx index) := by
    simp [handle, hjob]
  rw [hstep]
  generalize s.queue.eraseIdx index = rest at hrest
  by_cases hlast : s.sync.isComplete session = true ∨ timing.ceiling ≤ timing.waitedAt k
  · -- nothing to wait for, or no time left
    have hnap : (if s.sync.isComplete session then none
        else nap? s.timing (timing.waitedAt k)) = none := by
      rcases hlast with hcomplete | hceiling
      · simp [hcomplete]
      · simp [nap?, hs.timing, hceiling]
    have hreport : s.step { number, work := .poll session (timing.waitedAt k) } rest =
        (({ s with queue := rest } : Schedule).doing (·.report session)).1 := by
      simp only [step, Schedule.turn, hnap]
    refine .inr ?_
    rw [hreport]
    exact ⟨⟨hlast.imp_right (Nat.le_antisymm (timing.waitedAt_le k)), rfl, rfl⟩, hrest⟩
  · obtain ⟨hincomplete, hearly⟩ := not_or.mp hlast
    have hearly : timing.waitedAt k < timing.ceiling := Nat.lt_of_not_le hearly
    have hnap : (if s.sync.isComplete session then none
        else nap? s.timing (timing.waitedAt k)) =
          some (min timing.tick (timing.ceiling - timing.waitedAt k)) := by
      simp [nap?, hs.timing, hincomplete, hearly]
    have hwait : s.step { number, work := .poll session (timing.waitedAt k) } rest =
        ({ s with queue := rest } : Schedule).waitFor
          (min timing.tick (timing.ceiling - timing.waitedAt k))
          { number, work := .poll session (timing.waitedAt (k + 1)) } := by
      simp only [step, Schedule.turn, hnap, BarrierTiming.waitedAt_succ hearly]
    refine .inl ?_
    rw [hwait]
    refine ⟨⟨Bool.eq_false_iff.mpr hincomplete, hearly, rfl, rfl⟩, ?_⟩
    have hagenda := (agenda_waitFor { s with queue := rest }
      (min timing.tick (timing.ceiling - timing.waitedAt k))
      { number, work := .poll session (timing.waitedAt (k + 1)) }).filter (·.2.number = number)
    rw [List.filter_cons_of_pos (by simp), ← agendaOf, ← agendaOf, hrest] at hagenda
    rw [Awaits, List.perm_singleton.mp hagenda]
    dsimp only
    rw [hnow, Nat.add_assoc, BarrierTiming.waitedAt_succ hearly]

-- ---------------------------------------------------------------------------
-- Runs
-- ---------------------------------------------------------------------------

theorem look?_eq_none {event : Event}
    (hother : ∀ index job, event = .turn index → s.queue[index]? = some job →
      job.number ≠ number) : s.look? number event = none := by
  unfold look?
  split
  · rename_i index
    split
    · rename_i other session waited hjob
      exact if_neg (hother index _ rfl hjob)
    · rfl
  · rfl

theorem looks_of_gone {events : List Event} (hgone : s.agendaOf number = [])
    (hnumber : number < s.next) (hkept : .cancel number ∉ events) :
    s.looks number events = [] ∧ (s.run events).agendaOf number = [] := by
  induction events generalizing s with
  | nil => exact ⟨rfl, hgone⟩
  | cons event rest ih =>
    obtain ⟨hevent, hrest⟩ := not_or.mp (mt List.mem_cons.mpr hkept)
    have hother (index : Nat) (job : Job) (_ : event = .turn index)
        (hjob : s.queue[index]? = some job) : job.number ≠ number := by
      have hmem : (s.now, job) ∈ s.agenda := (agenda_take hjob).mem_iff.mpr (by simp)
      simpa using List.filter_eq_nil_iff.mp hgone _ hmem
    have hafter := agendaOf_handle hnumber (Ne.symm hevent) hother
    rw [hgone, List.perm_nil] at hafter
    rw [looks, look?_eq_none hother]
    exact ih hafter (lt_next_handle hnumber event) hrest

/-- However a schedule goes on, the looks of its barrier follow one another. -/
theorem course_of_awaits {events : List Event} (h : Awaits timing session start number k s)
    (hs : Timely timing s) (hkept : .cancel number ∉ events) :
    Course timing session start number k (s.looks number events) (s.run events) := by
  -- a turn of the barrier is a look, and any other event leaves it where it waits
  induction events generalizing s k with
  | nil => exact .waits h
  | cons event rest ih =>
    obtain ⟨hevent, hrest⟩ := not_or.mp (mt List.mem_cons.mpr hkept)
    have hnumber : number < s.next := hs.numbered _ h.mem_agenda
    by_cases hturn : ∃ index job, event = .turn index ∧ s.queue[index]? = some job ∧
        job.number = number
    · obtain ⟨index, job, rfl, hjob, hmine⟩ := hturn
      obtain ⟨hlook, hmoment, ⟨hnaps, hnext⟩ | ⟨hreports, hgone⟩⟩ := h.turn hs hjob hmine
      · rw [looks, hlook]
        exact .naps rfl hmoment hnaps (ih hnext (hs.handle _) hrest)
      · obtain ⟨hlooks, hlater⟩ := looks_of_gone hgone (lt_next_handle hnumber _) hrest
        rw [looks, hlook, hlooks]
        exact .reports rfl hmoment hreports hlater
    · have hother (index : Nat) (job : Job) (hevent : event = .turn index)
          (hjob : s.queue[index]? = some job) : job.number ≠ number :=
        fun hmine => hturn ⟨index, job, hevent, hjob, hmine⟩
      have hafter := agendaOf_handle hnumber (Ne.symm hevent) hother
      rw [h, List.perm_singleton] at hafter
      rw [looks, look?_eq_none hother]
      exact ih hafter (hs.handle event) hrest

theorem awaits_setup (hs : Timely timing s) (h : s.setup toggles = (t, some number)) :
    Awaits timing s.sync.sessions.length t.now number 0 t := by
  have hsession := (s.sync.later_setup toggles).1
  have hsync (sync : Sync) : Timely timing { s with sync } := hs.abreast ⟨rfl, rfl, rfl, rfl, rfl⟩
  unfold setup at h
  generalize s.sync.setup toggles = begun at h hsession
  obtain ⟨sync, started⟩ := begun
  dsimp only at h hsession
  have hfetches := (hsync sync).spawnFetches started.session started.wanted
  generalize started.wanted.foldl (spawnFetch started.session) { s with sync } = u at h hfetches
  split at h
  · obtain ⟨rfl, hnumber⟩ := Prod.mk.inj h
    obtain rfl := Option.some.inj hnumber
    have hnone : u.agendaOf u.next = [] := by
      refine List.filter_eq_nil_iff.mpr fun entry hentry => ?_
      simpa using Nat.ne_of_lt (hfetches.numbered entry hentry)
    have hagenda := (agenda_enqueue u
      { number := u.next, work := .poll started.session 0 }).filter (·.2.number = u.next)
    rw [List.filter_cons_of_pos (by simp), ← agendaOf, ← agendaOf, hnone] at hagenda
    rw [← hsession, Awaits, timing.waitedAt_zero]
    exact List.perm_singleton.mp hagenda
  · cases h

-- ---------------------------------------------------------------------------
-- Courses
-- ---------------------------------------------------------------------------

namespace Course

variable {looks naps : List Look} {look last : Look} {i w : Nat}

/-- The looks lie a tick apart, the last of them perhaps less. -/
theorem waited (h : Course timing session start number k looks t)
    (hlook : looks[i]? = some look) :
    look.waited = timing.waitedAt (k + i) ∧ look.before.now = start + look.waited := by
  induction h generalizing i with
  | waits => cases hlook
  | naps hwaited hmoment _ _ ih =>
    cases i with
    | zero =>
      obtain rfl := Option.some.inj hlook
      exact ⟨hwaited, hmoment⟩
    | succ i =>
      rw [Nat.add_comm i, ← Nat.add_assoc]
      exact ih hlook
  | reports hwaited hmoment _ _ =>
    cases i with
    | zero =>
      obtain rfl := Option.some.inj hlook
      exact ⟨hwaited, hmoment⟩
    | succ i => cases hlook

theorem split (h : Course timing session start number k looks t) :
    ((∃ next, Awaits timing session start number next t) ∧
        ∀ look ∈ looks, look.Naps timing session) ∨
      (t.agendaOf number = [] ∧ ∃ naps last, looks = naps ++ [last] ∧
        (∀ look ∈ naps, look.Naps timing session) ∧ last.Reports timing session) := by
  induction h with
  | waits h => exact .inl ⟨⟨_, h⟩, List.forall_mem_nil _⟩
  | naps _ _ hnaps _ ih =>
    rcases ih with ⟨hnext, hall⟩ | ⟨hgone, naps, last, rfl, hall, hlast⟩
    · exact .inl ⟨hnext, List.forall_mem_cons.mpr ⟨hnaps, hall⟩⟩
    · exact .inr ⟨hgone, _ :: naps, last, rfl, List.forall_mem_cons.mpr ⟨hnaps, hall⟩, hlast⟩
  | reports _ _ hreports hgone =>
    exact .inr ⟨hgone, [], _, rfl, List.forall_mem_nil _, hreports⟩

theorem of_pending (h : Course timing session start number k looks t)
    (hpending : t.isPending number = true) : ∀ look ∈ looks, look.Naps timing session := by
  rcases h.split with ⟨-, hall⟩ | ⟨hgone, -⟩
  · exact hall
  · rw [isPending_eq_false_iff.mpr hgone] at hpending
    cases hpending

theorem of_ended (h : Course timing session start number k looks t)
    (hended : t.isPending number = false) :
    ∃ naps last, looks = naps ++ [last] ∧ (∀ look ∈ naps, look.Naps timing session) ∧
      last.Reports timing session := by
  rcases h.split with ⟨⟨next, hnext⟩, -⟩ | ⟨-, hlooks⟩
  · rw [isPending_eq_false_iff, hnext] at hended
    cases hended
  · exact hlooks

theorem waited_nap (h : Course timing session start number 0 (naps ++ more) t)
    (hi : i < naps.length) : naps[i].waited = timing.waitedAt i := by
  have hlook : (naps ++ more)[i]? = some naps[i] := by
    rw [List.getElem?_append_left hi, List.getElem?_eq_getElem hi]
  rw [(h.waited hlook).1, Nat.zero_add]

theorem length_naps (h : Course timing session start number 0 (naps ++ more) t)
    (hnaps : ∀ look ∈ naps, look.Naps timing session) : naps.length ≤ timing.naps := by
  cases hlength : naps.length with
  | zero => exact Nat.zero_le _
  | succ n =>
    have hlt : n < naps.length := by omega
    have hearly := (hnaps _ (List.getElem_mem hlt)).early
    rwa [h.waited_nap hlt, BarrierTiming.waitedAt_lt_iff] at hearly

theorem length_le (h : Course timing session start number 0 looks t) :
    looks.length ≤ timing.naps + 1 := by
  rcases h.split with ⟨-, hall⟩ | ⟨-, naps, last, rfl, hnaps, -⟩
  · have hlength := (List.append_nil looks ▸ h).length_naps hall
    exact Nat.le_succ_of_le hlength
  · have hlength := h.length_naps hnaps
    simpa using hlength

section

variable (h : Course timing session start number 0 (naps ++ [last]) t)
  (hnaps : ∀ look ∈ naps, look.Naps timing session) (hlast : last.Reports timing session)
include h

theorem waited_last : last.waited = timing.waitedAt naps.length := by
  have hlook : (naps ++ [last])[naps.length]? = some last := by simp
  simpa using (h.waited hlook).1

include hnaps hlast

theorem of_never (hnever : ∀ look ∈ naps ++ [last], look.before.sync.isComplete session = false) :
    last.waited = timing.ceiling ∧ naps.length = timing.naps := by
  have hceiling : last.waited = timing.ceiling := by
    refine hlast.due.resolve_left fun hcomplete => ?_
    simp [hnever last (by simp)] at hcomplete
  have hmost := h.length_naps hnaps
  have hleast : ¬ naps.length < timing.naps := by
    rw [← BarrierTiming.waitedAt_lt_iff, ← h.waited_last, hceiling]
    exact Nat.lt_irrefl _
  exact ⟨hceiling, Nat.le_antisymm hmost (Nat.le_of_not_lt hleast)⟩

theorem of_complete (hw : w < timing.ceiling)
    (hcomplete : ∀ look ∈ naps ++ [last],
      look.before.sync.isComplete session = true ↔ w ≤ look.waited) :
    (∀ look ∈ naps, look.waited < w) ∧ w ≤ last.waited ∧ last.waited < w + timing.tick := by
  have hbefore : ∀ look ∈ naps, look.waited < w := by
    intro look hlook
    have hincomplete := (hnaps look hlook).incomplete
    refine Nat.lt_of_not_le fun hle => ?_
    simp [(hcomplete look (List.mem_append_left _ hlook)).mpr hle] at hincomplete
  refine ⟨hbefore, ?_, ?_⟩
  · rcases hlast.due with hdone | hceiling
    · exact (hcomplete last (by simp)).mp hdone
    · exact hceiling ▸ Nat.le_of_lt hw
  · rw [h.waited_last]
    cases hlength : naps.length with
    | zero =>
      rw [timing.waitedAt_zero]
      exact Nat.add_pos_right _ timing.tick_pos
    | succ n =>
      -- the look before was too early, and a tick lies between the two
      have hlt : n < naps.length := by omega
      have hearly := hbefore _ (List.getElem_mem hlt)
      have hroom := (hnaps _ (List.getElem_mem hlt)).early
      rw [h.waited_nap hlt] at hearly hroom
      rw [BarrierTiming.waitedAt_of_lt hroom] at hearly
      rw [BarrierTiming.waitedAt, Nat.succ_mul]
      omega

end

theorem gone_of_done (h : Course timing session start number k looks t) (hqueue : t.queue = [])
    (htimers : ∀ timer ∈ t.timers, start + timing.ceiling < timer.due) :
    t.isPending number = false := by
  rcases h.split with ⟨⟨next, hnext⟩, -⟩ | ⟨hgone, -⟩
  · have hmem := hnext.mem_agenda
    rw [agenda, hqueue, List.map_nil, List.nil_append] at hmem
    obtain ⟨timer, htimer, hentry⟩ := List.mem_map.mp hmem
    have hlate := htimers timer htimer
    have hdue := timing.waitedAt_le next
    rw [(Prod.mk.inj hentry).1] at hlate
    omega
  · exact isPending_eq_false_iff.mpr hgone

end Course

-- ---------------------------------------------------------------------------
-- Bounds
-- ---------------------------------------------------------------------------

/-- Whatever tick and ceiling a barrier is given and whatever else happens until then: it looks
once in a tick and for the last time at the ceiling, so that there are only so many looks. The last
one is the first at which the session is complete or the ceiling is reached, and it reports. If
time passes up to the ceiling, the barrier has ended. -/
theorem readiness_bounded (sync : Sync) (fetcher : Fetcher) (unit : ClockUnit)
    (tick ceiling : Nat) (earlier later : List Event) (toggles : List Toggle) {s : Schedule}
    {number : Nat}
    (hstart : ((ofSync sync fetcher (.of unit tick ceiling)).run earlier).setup toggles =
      (s, some number))
    (hkept : .cancel number ∉ later) :
    let timing := BarrierTiming.of unit tick ceiling
    let floored := max tick unit.perMillisecond
    let session := ((ofSync sync fetcher timing).run earlier).sync.sessions.length
    let t := s.run later
    let looks := s.looks number later
    (∀ i look, looks[i]? = some look →
      look.waited = min (i * floored) ceiling ∧ look.before.now = s.now + look.waited) ∧
    looks.length ≤ timing.naps + 1 ∧
    (t.isPending number = true → ∀ look ∈ looks, look.Naps timing session) ∧
    (t.isPending number = false → ∃ naps last, looks = naps ++ [last] ∧
      (∀ look ∈ naps, look.Naps timing session) ∧ last.Reports timing session ∧
      ((∀ look ∈ looks, look.before.sync.isComplete session = false) →
        last.waited = ceiling ∧ naps.length = (ceiling + floored - 1) / floored) ∧
      ∀ w < ceiling,
        (∀ look ∈ looks, look.before.sync.isComplete session = true ↔ w ≤ look.waited) →
        (∀ look ∈ naps, look.waited < w) ∧ w ≤ last.waited ∧ last.waited < w + floored) ∧
    ∃ more : List Event, (∀ event ∈ more, event.Runs) ∧
      t.run more = t.pass (fun _ => false) (s.now + ceiling) ∧
      (t.run more).isPending number = false := by
  intro timing floored session t looks
  have hbegun := (timely_ofSync sync fetcher timing).run earlier
  have hs : Timely timing s := by
    have hsetup := hbegun.setup toggles
    rwa [hstart] at hsetup
  have hawaits : Awaits timing session s.now number 0 s := awaits_setup hbegun hstart
  have hcourse : Course timing session s.now number 0 looks t :=
    course_of_awaits hawaits hs hkept
  refine ⟨fun i look hlook => ?_, hcourse.length_le, hcourse.of_pending, fun hended => ?_, ?_⟩
  · have hwaited := hcourse.waited hlook
    rwa [Nat.zero_add] at hwaited
  · obtain ⟨naps, last, hlooks, hnaps, hlast⟩ := hcourse.of_ended hended
    rw [hlooks] at hcourse ⊢
    exact ⟨naps, last, rfl, hnaps, hlast, hcourse.of_never hnaps hlast,
      fun w hw => hcourse.of_complete hnaps hlast hw⟩
  · obtain ⟨⟨more, hruns, hrun⟩, hqueue, htimers⟩ :=
      goesOn_pass (hs.run later) (s.now + ceiling)
    have hstays : .cancel number ∉ later ++ more := by
      rintro hmem
      rcases List.mem_append.mp hmem with hmem | hmem
      · exact hkept hmem
      · cases hruns _ hmem
    have hwhole := course_of_awaits hawaits hs hstays
    rw [run_append, hrun] at hwhole
    refine ⟨more, hruns, hrun, ?_⟩
    rw [hrun]
    exact hwhole.gone_of_done hqueue htimers

def microseconds : ClockUnit :=
  { perMillisecond := 1000, perMillisecond_pos := by decide }

/-- An application whose only fetch takes twenty milliseconds. -/
def fetchingSlowly (tick ceiling : Nat) : Schedule :=
  .ofSync (.start (.ofHome ["home"]) { directory := "cache" }
      { features := ∅, registry := .ofCatalogue .builtIn, link := .connected, maxSteps := 1 }
      .empty)
    (fun _ _ _ => { delay := 20000, result := .ok "\x7b\x7d" }) (.of microseconds tick ceiling)

/-- The tick is sixteen milliseconds and a half, and the fetch ends between the looks after one
tick and after two. -/
theorem readiness_bounded_uneven :
    let s := ((fetchingSlowly 16500 40000).setup [.enabled "slow" "1"]).1
    let later : List Event :=
      [.turn 0, .turn 0, .turn 0, .turn 0, .elapse 16500, .turn 0, .elapse 20000, .turn 0,
        .elapse 33000, .turn 0]
    ((fetchingSlowly 16500 40000).run []).setup [.enabled "slow" "1"] = (s, some 2) ∧
      .cancel 2 ∉ later ∧ (s.looks 2 later).map Look.waited = [0, 16500, 33000] ∧
      ∃ naps last, s.looks 2 later = naps ++ [last] ∧
        last.Reports (.of microseconds 16500 40000) 0 ∧
        (∀ look ∈ naps, look.waited < 20000) ∧ 20000 ≤ last.waited ∧
        last.waited < 20000 + 16500 := by
  intro s later
  have hstart :
      ((fetchingSlowly 16500 40000).run []).setup [.enabled "slow" "1"] = (s, some 2) :=
    Prod.ext rfl (by decide +kernel)
  have hkept : .cancel 2 ∉ later := by simp [later]
  have hended : (s.run later).isPending 2 = false := by decide +kernel
  have hcomplete : ∀ look ∈ s.looks 2 later,
      look.before.sync.isComplete 0 = true ↔ 20000 ≤ look.waited := by
    have hall : (s.looks 2 later).all (fun look =>
        look.before.sync.isComplete 0 == decide (20000 ≤ look.waited)) = true := by decide +kernel
    intro look hlook
    have heq := beq_iff_eq.mp (List.all_eq_true.mp hall look hlook)
    rw [heq, decide_eq_true_iff]
  obtain ⟨-, -, -, hends, -⟩ :=
    readiness_bounded _ _ microseconds 16500 40000 [] later _ hstart hkept
  obtain ⟨naps, last, hlooks, -, hreports, -, hfirst⟩ := hends hended
  exact ⟨hstart, hkept, by decide +kernel, naps, last, hlooks, hreports,
    hfirst 20000 (by decide) hcomplete⟩

end Schedule

end FeatureFlow
