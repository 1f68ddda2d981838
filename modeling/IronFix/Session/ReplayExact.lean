import IronFix.Session.Paging

/-!
# A replay over a conforming store

The pages of a conforming store, one after the other, are the stored messages
of the range in order. So the loop has something left to read until it is done
(`measure`), and no message that may be replayed is passed over (`OnTrack`).
-/

namespace IronFix.Session

open Lib.Decimal Lib.Runs

/-! ## The store -/

/-- The stored messages of a range. -/
def within (stored : List Entry) (first last : Nat) : List Entry :=
  stored.filter fun entry => first ≤ entry.seq && entry.seq ≤ last

/-- Stored under ascending numbers. -/
abbrev Ascending (entries : List Entry) : Prop :=
  entries.Pairwise fun one two => one.seq < two.seq

/-- A store whose pages are ascending, inside the range and no longer than the
limit, and leave out only what does not fit: a short page holds all there is. -/
def Honours (stored : List Entry) (getPage : PageRequest → Option (List Entry)) : Prop :=
  ∀ request, getPage request =
    some ((within stored request.fromSeq request.through).take request.limit)

theorem mem_within {stored : List Entry} {first last : Nat} {entry : Entry} :
    entry ∈ within stored first last ↔ entry ∈ stored ∧ first ≤ entry.seq ∧ entry.seq ≤ last := by
  simp [within]

theorem Ascending.within {stored : List Entry} (ascending : Ascending stored) (first last : Nat) :
    Ascending (within stored first last) := List.Pairwise.filter _ ascending

theorem Ascending.le_last {entries : List Entry} (ascending : Ascending entries)
    {furthest entry : Entry} (ends : entries.getLast? = some furthest) (member : entry ∈ entries) :
    entry.seq ≤ furthest.seq := by
  obtain ⟨before, rfl⟩ := List.getLast?_eq_some_iff.mp ends
  obtain ⟨_, _, across⟩ := List.pairwise_append.mp ascending
  rcases List.mem_append.mp member with early | last
  · exact Nat.le_of_lt (across entry early furthest (List.mem_singleton_self _))
  · rw [List.mem_singleton.mp last]

/-- What is left behind a page is what lies past its last number. -/
theorem drop_eq_within {entries : List Entry} (ascending : Ascending entries) {n last : Nat}
    {furthest : Entry} (ends : (entries.take n).getLast? = some furthest)
    (bounded : ∀ entry ∈ entries, entry.seq ≤ last) :
    entries.drop n = within entries (furthest.seq + 1) last := by
  have split := List.take_append_drop n entries
  have ordered : Ascending (entries.take n ++ entries.drop n) := split.symm ▸ ascending
  obtain ⟨front, _, across⟩ := List.pairwise_append.mp ordered
  have before : within (entries.take n) (furthest.seq + 1) last = [] := by
    rw [within, List.filter_eq_nil_iff]
    intro entry member
    have := Ascending.le_last front ends member
    simp only [Bool.and_eq_true, decide_eq_true_eq, not_and]
    omega
  have behind : within (entries.drop n) (furthest.seq + 1) last = entries.drop n := by
    rw [within, List.filter_eq_self]
    intro entry member
    have := across furthest (List.mem_of_getLast? ends) entry member
    have := bounded entry (List.mem_of_mem_drop member)
    simp only [Bool.and_eq_true, decide_eq_true_eq]
    omega
  conv_rhs => rw [← split, within, List.filter_append]
  rw [← within, ← within, before, behind, List.nil_append]

/-- A later range of a range. -/
theorem within_within (stored : List Entry) {first next last : Nat} (later : first ≤ next) :
    within (within stored first last) next last = within stored next last := by
  rw [within, within, List.filter_filter, within]
  refine List.filter_congr fun entry _ => ?_
  by_cases high : entry.seq ≤ last
  · by_cases low : next ≤ entry.seq
    · simp [high, low, le_trans later low]
    · simp [low]
  · simp [high]

/-! ## The messages still to come -/

namespace Driver

variable (stored : List Entry)

/-- The stored messages the driver has not looked at. -/
def todo (driver : Driver) : List Entry :=
  driver.page ++
    if driver.core.storeDone then [] else within stored driver.core.readFrom driver.core.endSeq

/-- How far the loop is from its end. -/
def measure (driver : Driver) : Nat :=
  (if driver.core.storeDone then 0 else driver.core.endSeq + 2 - driver.core.readFrom + 1) *
      (2 * REPLAY_PAGE_LIMIT + 2) +
    2 * driver.page.length + if driver.pending.isSome then 1 else 0

variable (verdict : Nat → ReplayVerdict)

/-- A message that the replay owes under its own number. -/
structure Owed (beginSeq endSeq : Nat) (entry : Entry) : Prop where
  stored : entry ∈ stored
  low : beginSeq ≤ entry.seq
  high : entry.seq ≤ endSeq
  app : entry.isAdmin = false
  allowed : verdict entry.seq = .replay

/-- No message that is owed has been passed over. -/
structure OnTrack (beginSeq : Nat) (driver : Driver) (told : List Reply) : Prop where
  ascending : Ascending (driver.todo stored)
  ahead : ∀ entry ∈ driver.todo stored, driver.core.replyCursor ≤ entry.seq
  accounted : ∀ entry, Owed stored verdict beginSeq driver.core.endSeq entry →
    .replay entry.seq ∈ told ∨ driver.pending = some entry.seq ∨ entry ∈ driver.todo stored

variable {stored verdict} {beginSeq : Nat}

/-- A range that has just been accepted, or widened, is on track. -/
theorem onTrack_start (verdict : Nat → ReplayVerdict) (sorted : Ascending stored) {core : ResendReplay}
    (fresh : core.readFrom = core.replyCursor) (hasStore : core.storeDone = false) :
    OnTrack stored verdict core.replyCursor ⟨core, [], none⟩ [] := by
  have all : (⟨core, [], none⟩ : Driver).todo stored = within stored core.replyCursor core.endSeq := by
    simp [todo, hasStore, fresh]
  refine ⟨?_, ?_, ?_⟩
  · rw [all]
    exact sorted.within _ _
  · rw [all]
    intro entry member
    exact (mem_within.mp member).2.1
  · intro entry owed
    rw [all]
    exact .inr (.inr (mem_within.mpr ⟨owed.stored, owed.low, owed.high⟩))

theorem onPage_cases (core : ResendReplay) (len : Nat) (furthest : Option Nat) :
    ((core.onPage (.read len furthest)).storeDone = true ∧
      (furthest = none ∨ len < REPLAY_PAGE_LIMIT ∨ ∃ last, furthest = some last ∧
        core.endSeq ≤ last)) ∨
    ∃ last, furthest = some last ∧ last < core.endSeq ∧
      (core.onPage (.read len furthest)).readFrom = last + 1 ∧
      (core.onPage (.read len furthest)).storeDone = core.storeDone := by
  unfold ResendReplay.onPage
  cases furthest with
  | none => exact .inl ⟨rfl, .inl rfl⟩
  | some last =>
      simp only
      by_cases short : len < REPLAY_PAGE_LIMIT
      · rw [if_pos short]
        exact .inl ⟨rfl, .inr (.inl short)⟩
      · rw [if_neg short]
        have ends := core.ends
        have isU64 := core.isU64
        cases found : checkedAdd u64Max last 1 with
        | none =>
            have overflows : ¬last + 1 ≤ u64Max := by
              intro fits
              rw [checkedAdd_eq_some.mpr ⟨rfl, fits⟩] at found
              cases found
            exact .inl ⟨rfl, .inr (.inr ⟨last, rfl, by omega⟩)⟩
        | some next =>
            have landed := (checkedAdd_eq_some.mp found).1
            by_cases onward : next ≤ core.endSeq
            · simp only [if_pos onward]
              exact .inr ⟨last, rfl, by omega, landed.symm, trivial⟩
            · simp only [if_neg onward]
              exact .inl ⟨trivial, .inr (.inr ⟨last, rfl, by omega⟩)⟩

/-- A page moves messages from the store to the driver, and leaves less to read. -/
theorem readPage_todo (sorted : Ascending stored) (core : ResendReplay)
    (more : core.storeDone = false) (inside : core.readFrom ≤ core.endSeq) {page : List Entry}
    (served : page = (within stored core.readFrom core.endSeq).take REPLAY_PAGE_LIMIT) :
    let after : Driver := ⟨core.onPage (.read page.length (page.getLast?.map Entry.seq)), page, none⟩
    after.todo stored = within stored core.readFrom core.endSeq ∧
      after.measure < measure ⟨core, [], none⟩ := by
  intro after
  have ordered := sorted.within core.readFrom core.endSeq
  have bounded : ∀ entry ∈ within stored core.readFrom core.endSeq, entry.seq ≤ core.endSeq :=
    fun entry member => (mem_within.mp member).2.2
  have room : page.length ≤ 256 := by
    rw [served]
    exact List.length_take_le _ _
  have endSeq : after.core.endSeq = core.endSeq := (core.onPage_keeps _).2.1
  have before : measure ⟨core, [], none⟩ = (core.endSeq + 2 - core.readFrom + 1) * 514 := by
    simp [measure, more, REPLAY_PAGE_LIMIT]
  have left : ∀ furthest, page.getLast? = some furthest →
      (within stored core.readFrom core.endSeq).drop REPLAY_PAGE_LIMIT =
        within stored (furthest.seq + 1) core.endSeq := by
    intro furthest ends
    rw [served] at ends
    have low := (mem_within.mp (List.mem_of_mem_take (List.mem_of_getLast? ends))).2.1
    rw [drop_eq_within ordered ends bounded, within_within stored (by omega)]
  have split := List.take_append_drop REPLAY_PAGE_LIMIT (within stored core.readFrom core.endSeq)
  rw [← served] at split
  rcases onPage_cases core page.length (page.getLast?.map Entry.seq) with
    ⟨done, exhausted⟩ | ⟨last, found, early, readFrom, storeDone⟩
  · -- the store's part ends: the page is all there is
    have nothing : (within stored core.readFrom core.endSeq).drop REPLAY_PAGE_LIMIT = [] := by
      rcases exhausted with empty | short | ⟨last, found, past⟩
      · rw [Option.map_eq_none_iff, List.getLast?_eq_none_iff, served, List.take_eq_nil_iff] at empty
        rcases empty with zero | empty
        · cases zero
        · rw [empty]
          rfl
      · rw [served, List.length_take] at short
        rw [List.drop_eq_nil_iff]
        omega
      · obtain ⟨furthest, ends, rfl⟩ := Option.map_eq_some_iff.mp found
        rw [left furthest ends, within, List.filter_eq_nil_iff]
        intro entry _
        simp only [Bool.and_eq_true, decide_eq_true_eq, not_and]
        omega
    rw [nothing, List.append_nil] at split
    refine ⟨?_, ?_⟩
    · rw [todo, if_pos done, List.append_nil]
      exact split
    · rw [before, measure, if_pos done]
      simp [after]
      omega
  · obtain ⟨furthest, ends, rfl⟩ := Option.map_eq_some_iff.mp found
    have unread : after.core.storeDone = false := storeDone.trans more
    have next : after.core.readFrom = furthest.seq + 1 := readFrom
    have low : core.readFrom ≤ furthest.seq := by
      rw [served] at ends
      exact (mem_within.mp (List.mem_of_mem_take (List.mem_of_getLast? ends))).2.1
    refine ⟨?_, ?_⟩
    · rw [todo, if_neg (by simp [unread]), next, endSeq, ← left furthest ends]
      exact split
    · have after_eq : after.measure =
          (core.endSeq + 2 - (furthest.seq + 1) + 1) * 514 + 2 * page.length := by
        rw [measure, if_neg (by simp [unread]), next, endSeq]
        simp [after, REPLAY_PAGE_LIMIT]
      rw [before, after_eq]
      omega

/-- A message that was screened out or vetoed is owed by nobody. -/
theorem OnTrack.skip {core after : ResendReplay} {entry : Entry} {page : List Entry}
    {told : List Reply} (track : OnTrack stored verdict beginSeq ⟨core, entry :: page, none⟩ told)
    (unowed : ¬Owed stored verdict beginSeq core.endSeq entry)
    (cursor : after.replyCursor = core.replyCursor) (endSeq : after.endSeq = core.endSeq)
    (readFrom : after.readFrom = core.readFrom) (storeDone : after.storeDone = core.storeDone) :
    OnTrack stored verdict beginSeq ⟨after, page, none⟩ told := by
  have rest : (⟨core, entry :: page, none⟩ : Driver).todo stored =
      entry :: (⟨after, page, none⟩ : Driver).todo stored := by
    simp [todo, endSeq, readFrom, storeDone]
  obtain ⟨ascending, ahead, accounted⟩ := track
  rw [rest] at ascending ahead accounted
  refine ⟨ascending.of_cons, ?_, ?_⟩
  · intro other member
    rw [cursor]
    exact ahead other (List.mem_cons_of_mem _ member)
  · intro other owed
    rw [endSeq] at owed
    rcases accounted other owed with told | waits | left
    · exact .inl told
    · cases waits
    · rcases List.mem_cons.mp left with rfl | later
      · exact absurd owed unowed
      · exact .inr (.inr later)

/-- A replayed message is told or waits, and what follows it lies ahead. -/
theorem OnTrack.take {core after : ResendReplay} {entry : Entry} {page : List Entry}
    {told frames : List Reply} {pending : Option Nat}
    (track : OnTrack stored verdict beginSeq ⟨core, entry :: page, none⟩ told)
    (taken : .replay entry.seq ∈ frames ∨ pending = some entry.seq)
    (cursor : after.replyCursor = entry.seq + 1) (endSeq : after.endSeq = core.endSeq)
    (readFrom : after.readFrom = core.readFrom) (storeDone : after.storeDone = core.storeDone) :
    OnTrack stored verdict beginSeq ⟨after, page, pending⟩ (told ++ frames) := by
  have rest : (⟨core, entry :: page, none⟩ : Driver).todo stored =
      entry :: (⟨after, page, pending⟩ : Driver).todo stored := by
    simp [todo, endSeq, readFrom, storeDone]
  obtain ⟨ascending, _, accounted⟩ := track
  rw [rest] at ascending accounted
  refine ⟨ascending.of_cons, ?_, ?_⟩
  · intro other member
    have := (List.pairwise_cons.mp ascending).1 other member
    rw [cursor]
    omega
  · intro other owed
    rw [endSeq] at owed
    rcases accounted other owed with before | waits | left
    · exact .inl (List.mem_append_left _ before)
    · cases waits
    · rcases List.mem_cons.mp left with rfl | later
      · rcases taken with now | waits
        · exact .inl (List.mem_append_right _ now)
        · exact .inr (.inl waits)
      · exact .inr (.inr later)

/-- What a trip over a conforming store does: end with nothing owed, or go on
with less to do. -/
def Advances (stored : List Entry) (verdict : Nat → ReplayVerdict) (beginSeq : Nat)
    (driver : Driver) (told : List Reply) : Driver × List Reply × Progress → Prop
  | (after, frames, .done) => after.core.endSeq = driver.core.endSeq ∧
      ∀ entry, Owed stored verdict beginSeq driver.core.endSeq entry →
        .replay entry.seq ∈ told ++ frames
  | (after, frames, .wrote) | (after, frames, .readPage) =>
      after.core.endSeq = driver.core.endSeq ∧
      OnTrack stored verdict beginSeq after (told ++ frames) ∧ after.measure < driver.measure

theorem Advances.weaken {shorter longer : Driver} {told : List Reply}
    {outcome : Driver × List Reply × Progress}
    (advances : Advances stored verdict beginSeq shorter told outcome)
    (endSeq : shorter.core.endSeq = longer.core.endSeq) (less : shorter.measure ≤ longer.measure) :
    Advances stored verdict beginSeq longer told outcome := by
  obtain ⟨after, frames, progress⟩ := outcome
  cases progress with
  | done => exact ⟨advances.1.trans endSeq, endSeq ▸ advances.2⟩
  | wrote => exact ⟨advances.1.trans endSeq, advances.2.1, lt_of_lt_of_le advances.2.2 less⟩
  | readPage => exact ⟨advances.1.trans endSeq, advances.2.1, lt_of_lt_of_le advances.2.2 less⟩

theorem measure_cons (core after : ResendReplay) (entry : Entry) (page : List Entry)
    (pending : Option Nat) (endSeq : after.endSeq = core.endSeq)
    (readFrom : after.readFrom = core.readFrom) (storeDone : after.storeDone = core.storeDone) :
    measure ⟨after, page, pending⟩ < measure ⟨core, entry :: page, none⟩ := by
  have waits : (if pending.isSome = true then 1 else 0) ≤ 1 := by
    split <;> decide
  simp only [measure, endSeq, readFrom, storeDone, List.length_cons]
  omega

/-- At the end of a page the store is asked, or the replay is over. -/
theorem advancePage_spent {getPage : PageRequest → Option (List Entry)}
    (sorted : Ascending stored) (honours : Honours stored getPage) {core : ResendReplay}
    {told : List Reply} (track : OnTrack stored verdict beginSeq ⟨core, [], none⟩ told) :
    Advances stored verdict beginSeq ⟨core, [], none⟩ told (advancePage getPage verdict core []) := by
  obtain ⟨ascending, ahead, accounted⟩ := track
  rcases core.pollStore_cases with ⟨more, inside, reads⟩ | ⟨more, past, exhausted⟩ | ⟨done, completes⟩
  · have todo_eq : (⟨core, [], none⟩ : Driver).todo stored =
        within stored core.readFrom core.endSeq := by simp [todo, more]
    rw [todo_eq] at ascending ahead accounted
    obtain ⟨left, less⟩ := readPage_todo sorted { core with started := true } more inside rfl
    simp only [advancePage, reads, readResendPage, honours _]
    refine ⟨(ResendReplay.onPage_keeps _ _).2.1, ⟨?_, ?_, ?_⟩, less⟩
    · rw [left]
      exact ascending
    · rw [left, (ResendReplay.onPage_keeps _ _).2.2.1]
      exact ahead
    · rw [left, (ResendReplay.onPage_keeps _ _).2.1, List.append_nil]
      exact accounted
  · have nothing : within stored core.readFrom core.endSeq = [] := by
      rw [within, List.filter_eq_nil_iff]
      intro entry _
      simp only [Bool.and_eq_true, decide_eq_true_eq, not_and]
      omega
    have todo_eq : (⟨core, [], none⟩ : Driver).todo stored = [] := by simp [todo, more, nothing]
    have after_eq : (⟨{ core with started := true, storeDone := true }, [], none⟩ : Driver).todo
        stored = [] := by simp [todo]
    rw [todo_eq] at accounted
    simp only [advancePage, exhausted]
    refine ⟨rfl, ⟨?_, ?_, ?_⟩, ?_⟩
    · rw [after_eq]
      exact .nil
    · rw [after_eq]
      simp
    · rw [after_eq, List.append_nil]
      exact accounted
    · simp [measure, more, REPLAY_PAGE_LIMIT]
  · have todo_eq : (⟨core, [], none⟩ : Driver).todo stored = [] := by simp [todo, done]
    rw [todo_eq] at accounted
    simp only [advancePage, completes]
    refine ⟨rfl, fun entry owed => ?_⟩
    rcases accounted entry owed with before | waits | left
    · exact List.mem_append_left _ before
    · cases waits
    · cases left

theorem advancePage_advances {getPage : PageRequest → Option (List Entry)}
    (sorted : Ascending stored) (honours : Honours stored getPage) (page : List Entry)
    {core : ResendReplay} {told : List Reply}
    (track : OnTrack stored verdict beginSeq ⟨core, page, none⟩ told) :
    Advances stored verdict beginSeq ⟨core, page, none⟩ told
      (advancePage getPage verdict core page) := by
  induction page generalizing core with
  | nil => exact advancePage_spent sorted honours track
  | cons entry page ih =>
      have reached := track.ahead entry (List.mem_append_left _ List.mem_cons_self)
      unfold advancePage
      by_cases skips : core.screenEntry entry.seq entry.isAdmin = .skip
      · rw [if_pos skips]
        have unowed : ¬Owed stored verdict beginSeq core.endSeq entry := by
          intro owed
          exact core.screenEntry_candidate.mpr ⟨reached, owed.high, owed.app⟩ skips
        refine (ih (track.skip unowed rfl rfl rfl rfl)).weaken ?_ ?_
        · rfl
        · exact Nat.le_of_lt (measure_cons core core entry page none rfl rfl rfl)
      · rw [if_neg skips]
        rcases core.decideEntry_cases entry.seq (verdict entry.seq) with
          ⟨skipped, vetoed⟩ | ⟨allowed, decided⟩
        · have unowed : ¬Owed stored verdict beginSeq core.endSeq entry := by
            intro owed
            rcases vetoed with gapFill | outside
            · rw [owed.allowed] at gapFill
              cases gapFill
            · exact core.screenEntry_candidate.mpr ⟨reached, owed.high, rfl⟩ outside
          rw [skipped]
          refine (ih (track.skip unowed ?_ ?_ ?_ ?_)).weaken ?_ ?_
          · rfl
          · rfl
          · rfl
          · rfl
          · rfl
          · exact Nat.le_of_lt (measure_cons core _ entry page none rfl rfl rfl)
        · rcases taken : core.decideEntry entry.seq (verdict entry.seq) with ⟨action, after⟩
          rw [taken] at decided
          obtain ⟨action_eq, _, _, cursor, _, endSeq, readFrom, storeDone, _⟩ := decided
          simp only at action_eq cursor endSeq readFrom storeDone
          by_cases behind : entry.seq > core.replyCursor
          · rw [if_pos behind] at action_eq
            subst action_eq
            exact ⟨endSeq, track.take (.inr rfl) cursor endSeq readFrom storeDone,
              measure_cons core after entry page _ endSeq readFrom storeDone⟩
          · rw [if_neg behind] at action_eq
            subst action_eq
            exact ⟨endSeq, track.take (.inl (List.mem_singleton_self _)) cursor endSeq readFrom storeDone,
              measure_cons core after entry page _ endSeq readFrom storeDone⟩

/-- Every trip over a conforming store. -/
theorem advanceResend_advances {getPage : PageRequest → Option (List Entry)}
    (sorted : Ascending stored) (honours : Honours stored getPage) {driver : Driver}
    {told : List Reply} (track : OnTrack stored verdict beginSeq driver told) :
    Advances stored verdict beginSeq driver told (advanceResend getPage verdict driver) := by
  obtain ⟨core, page, pending⟩ := driver
  cases pending with
  | none => exact advancePage_advances sorted honours page track
  | some seq =>
      obtain ⟨ascending, ahead, accounted⟩ := track
      refine ⟨rfl, ⟨ascending, ahead, ?_⟩, by simp [measure]⟩
      intro entry owed
      rcases accounted entry owed with before | waits | left
      · exact .inl (List.mem_append_left _ before)
      · obtain rfl : seq = entry.seq := Option.some.inj waits
        exact .inl (List.mem_append_right _ (List.mem_singleton_self _))
      · exact .inr (.inr left)

/-- Over a conforming store a replay ends, and has told all that was owed. -/
theorem drive_ends {getPage : PageRequest → Option (List Entry)} (sorted : Ascending stored)
    (honours : Honours stored getPage) (fuel : Nat) {driver : Driver} {before : List Reply}
    (track : OnTrack stored verdict beginSeq driver before) (enough : driver.measure < fuel) :
    ∃ told last, drive getPage verdict fuel driver = some (told, last) ∧
      last.core.endSeq = driver.core.endSeq ∧
      ∀ entry, Owed stored verdict beginSeq driver.core.endSeq entry →
        .replay entry.seq ∈ before ++ told := by
  induction fuel generalizing driver before with
  | zero => omega
  | succ fuel ih =>
      have advances := advanceResend_advances sorted honours track
      rcases outcome : advanceResend getPage verdict driver with ⟨after, frames, progress⟩
      rw [outcome] at advances
      have goesOn : after.core.endSeq = driver.core.endSeq →
          OnTrack stored verdict beginSeq after (before ++ frames) → after.measure < driver.measure →
          ∃ told last, (drive getPage verdict fuel after).map (fun rest =>
            (frames ++ rest.1, rest.2)) = some (told, last) ∧
            last.core.endSeq = driver.core.endSeq ∧
            ∀ entry, Owed stored verdict beginSeq driver.core.endSeq entry →
              .replay entry.seq ∈ before ++ told := by
        intro endSeq onward less
        obtain ⟨told, last, driven, lastEnd, owed⟩ := ih onward (by omega)
        refine ⟨frames ++ told, last, by rw [driven]; rfl, lastEnd.trans endSeq, ?_⟩
        rw [← List.append_assoc, ← endSeq]
        exact owed
      simp only [drive, outcome]
      cases progress with
      | done => exact ⟨frames, after, rfl, advances.1, advances.2⟩
      | wrote => exact goesOn advances.1 advances.2.1 advances.2.2
      | readPage => exact goesOn advances.1 advances.2.1 advances.2.2

end Driver

/-! ## The replay -/

/-- The frames stand for the numbers from `first` up to `next`, each once and in
order, with no two gap fills in a row. -/
structure Exact (told : List Reply) (first next : Nat) : Prop where
  numbers : told.flatMap Reply.numbers = List.range' first (next - first)
  filled : ∀ reply ∈ told, reply.numbers ≠ []
  apart : told.IsChain fun one two => ¬(one.isFill = true ∧ two.isFill = true)

theorem Walk.Covers.exact {walk : Walk} (covers : walk.Covers) :
    Exact walk.told walk.beginSeq walk.core.replyCursor :=
  ⟨covers.numbers, covers.filled, covers.apart⟩

theorem widen_all (others : List ResendReplay) {core : ResendReplay}
    (fresh : core.readFrom = core.replyCursor) :
    (others.foldl ResendReplay.widen core).readFrom =
        (others.foldl ResendReplay.widen core).replyCursor ∧
      (others.foldl ResendReplay.widen core).storeDone = core.storeDone := by
  induction others generalizing core with
  | nil => exact ⟨fresh, rfl⟩
  | cons other others ih => exact ih rfl

/-- What `new` accepts. -/
theorem new_some {beginSeq newSeq : Fin (2 ^ 64)} {hasStore : Bool} {core : ResendReplay}
    (accepted : ResendReplay.new beginSeq newSeq hasStore = some core) :
    core.replyCursor = beginSeq.val ∧ core.newSeq = newSeq.val ∧
      core.readFrom = core.replyCursor ∧ core.storeDone = !hasStore := by
  unfold ResendReplay.new at accepted
  split at accepted
  · cases accepted
  · cases accepted
    exact ⟨rfl, rfl, rfl, rfl⟩

/-- A replay answers its range exactly: whatever the store and the application
do, as long as only a replay that has not started is widened; and over a
conforming store it ends with every message it may replay under its own number. -/
theorem replay_exact {beginSeq newSeq : Fin (2 ^ 64)} {hasStore : Bool} {core : ResendReplay}
    (accepted : ResendReplay.new beginSeq newSeq hasStore = some core) :
    (∀ calls, Along Walk.call Walk.Legal (Walk.start core) calls →
      let walk := run Walk.call (Walk.start core) calls
      walk.beginSeq ≤ beginSeq.val ∧ newSeq.val ≤ walk.core.newSeq ∧
        Exact walk.told walk.beginSeq walk.core.replyCursor ∧
        (walk.finished = true → walk.core.replyCursor = walk.core.newSeq)) ∧
    (hasStore = true → ∀ (others : List ResendReplay) (stored : List Entry)
      (verdict : Nat → ReplayVerdict) (getPage : PageRequest → Option (List Entry)),
      Ascending stored → Honours stored getPage →
      let widened := others.foldl ResendReplay.widen core
      ∃ fuel told last, Driver.drive getPage verdict fuel ⟨widened, [], none⟩ = some (told, last) ∧
        Exact told widened.replyCursor widened.newSeq ∧
        ∀ entry ∈ stored, widened.replyCursor ≤ entry.seq → entry.seq < widened.newSeq →
          entry.isAdmin = false → verdict entry.seq = .replay → .replay entry.seq ∈ told) := by
  obtain ⟨cursor, newSeq_eq, fresh, storeDone⟩ := new_some accepted
  constructor
  · intro calls legal walk
    have covers : walk.Covers := Walk.covers_run legal
    obtain ⟨low, high⟩ := Walk.extends_run legal
    rw [cursor] at low
    rw [newSeq_eq] at high
    exact ⟨low, high, covers.exact, covers.finished⟩
  · intro isStore others stored verdict getPage sorted honours widened
    obtain ⟨freshWide, storeWide⟩ := widen_all others fresh
    have hasMore : widened.storeDone = false := by
      rw [storeWide, storeDone, isStore]
      rfl
    have track := Driver.onTrack_start verdict sorted freshWide hasMore
    obtain ⟨told, last, driven, endSeq, owed⟩ :=
      Driver.drive_ends sorted honours _ track (Nat.lt_succ_self _)
    have starts : Follows (Walk.start widened) ⟨widened, [], none⟩ [] := ⟨rfl, rfl⟩
    obtain ⟨calls, quiet, follows, start, finished, settled⟩ :=
      Driver.drive_run getPage verdict starts driven
    have covers := Walk.covers_run (along_of_quiet (Walk.start widened) quiet)
    have written := follows.told
    rw [settled] at written
    have same : (run Walk.call (Walk.start widened) calls).told = told := by simpa using written
    have exactly := covers.exact
    have ends := (run Walk.call (Walk.start widened) calls).core.ends
    rw [same, start, covers.finished finished, ← ends, follows.core, endSeq, widened.ends] at exactly
    refine ⟨_, told, last, driven, exactly, ?_⟩
    intro entry member low high app allowed
    have inside : entry.seq ≤ widened.endSeq := by
      have := widened.ends
      omega
    exact owed entry ⟨member, low, inside, app, allowed⟩

/-- The replay of 1..4. -/
def firstThree : ResendReplay := ⟨4, 3, 1, 1, false, false, rfl, by decide, by decide⟩

theorem replay_exact_firstThree :
    (∀ calls, Along Walk.call Walk.Legal (Walk.start firstThree) calls →
      let walk := run Walk.call (Walk.start firstThree) calls
      walk.beginSeq ≤ 1 ∧ 4 ≤ walk.core.newSeq ∧
        Exact walk.told walk.beginSeq walk.core.replyCursor ∧
        (walk.finished = true → walk.core.replyCursor = walk.core.newSeq)) ∧
    (true = true → ∀ (others : List ResendReplay) (stored : List Entry)
      (verdict : Nat → ReplayVerdict) (getPage : PageRequest → Option (List Entry)),
      Ascending stored → Honours stored getPage →
      let widened := others.foldl ResendReplay.widen firstThree
      ∃ fuel told last, Driver.drive getPage verdict fuel ⟨widened, [], none⟩ = some (told, last) ∧
        Exact told widened.replyCursor widened.newSeq ∧
        ∀ entry ∈ stored, widened.replyCursor ≤ entry.seq → entry.seq < widened.newSeq →
          entry.isAdmin = false → verdict entry.seq = .replay → .replay entry.seq ∈ told) :=
  @replay_exact 1 4 true firstThree rfl

/-- A store that serves one message at a time: ascending, inside the range and
within the limit. -/
def singly (stored : List Entry) (request : PageRequest) : Option (List Entry) :=
  some ((within stored request.fromSeq request.through).take 1)

/-- A replay widened after it has started replays a number twice, and a page
cut short of the limit leaves the messages behind it to a gap fill. -/
theorem replay_inexact :
    (run Walk.call (Walk.start firstThree)
      [.entry 1 false .replay, .widen firstThree, .entry 1 false .replay]).told =
        [.replay 1, .replay 1] ∧
    (Driver.drive (singly [⟨1, false⟩, ⟨2, false⟩, ⟨3, false⟩]) (fun _ => .replay) 9
      ⟨firstThree, [], none⟩).map Prod.fst = some [.replay 1, .fill ⟨2, 4⟩] := by
  decide

end IronFix.Session
