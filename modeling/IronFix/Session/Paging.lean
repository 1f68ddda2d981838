import IronFix.Session.ReplayWalk

/-!
# A replay over a store

The driver of a replay keeps the page it read and the frame that waits behind a
gap fill. Over a store whose pages hold the first messages of the range it was
asked for, a replay ends, and replays every message it may under its own
number.
-/

namespace IronFix.Session

open Lib.Decimal Lib.Runs

/-- A stored message, as far as a replay looks at it. -/
structure Entry where
  seq : Nat
  isAdmin : Bool
  deriving DecidableEq, Repr

/-- What the driver has read and built for a replay. -/
structure Driver where
  core : ResendReplay
  /-- Messages read and not yet written or skipped. -/
  page : List Entry
  /-- A rebuilt frame, written on the call after its gap fill. -/
  pending : Option Nat

inductive Progress where
  | wrote
  | readPage
  | done
  deriving DecidableEq, Repr

namespace Driver

section Drive

variable (getPage : PageRequest → Option (List Entry)) (verdict : Nat → ReplayVerdict)

/-- Reads the next page of the range, or marks the store done for it. -/
def readResendPage (core : ResendReplay) (request : PageRequest) : Driver :=
  match getPage request with
  | some page => ⟨core.onPage (.read page.length (page.getLast?.map Entry.seq)), page, none⟩
  | none => ⟨core.onPage .failed, [], none⟩

/-- The loop of `advance_resend` over the page. -/
def advancePage (core : ResendReplay) : List Entry → Driver × List Reply × Progress
  | [] =>
      match core.pollStore with
      | (.readPage request, core) => (readResendPage getPage core request, [], .readPage)
      | (.storeExhausted, core) => (⟨core, [], none⟩, [], .readPage)
      | (.complete gapFill, core) => (⟨core, [], none⟩, (ReplayStep.complete gapFill).told, .done)
  | entry :: page =>
      if core.screenEntry entry.seq entry.isAdmin = .skip then advancePage core page
      else
        match core.decideEntry entry.seq (verdict entry.seq) with
        | (.skip, core) => advancePage core page
        | (.replay seq, core) => (⟨core, page, none⟩, [.replay seq], .wrote)
        | (.gapFillThenReplay gapFill seq, core) => (⟨core, page, some seq⟩, [.fill gapFill], .wrote)

/-- Writes at most one frame, or reads one page. -/
def advanceResend (driver : Driver) : Driver × List Reply × Progress :=
  match driver.pending with
  | some seq => ({ driver with pending := none }, [.replay seq], .wrote)
  | none => advancePage getPage verdict driver.core driver.page

/-- The frames of a whole replay, `none` when `fuel` calls are not enough. -/
def drive : Nat → Driver → Option (List Reply × Driver)
  | 0, _ => none
  | fuel + 1, driver =>
      match advanceResend getPage verdict driver with
      | (driver, told, .done) => some (told, driver)
      | (driver, told, .wrote) | (driver, told, .readPage) =>
          (drive fuel driver).map fun rest => (told ++ rest.1, rest.2)

end Drive

end Driver

/-! ## The driver makes calls -/

/-- Calls of a replay under way. -/
def Call.isWiden : Call → Bool
  | .widen _ => true
  | .pollStore | .onPage _ | .entry _ _ _ => false

theorem along_of_quiet (walk : Walk) {calls : List Call}
    (quiet : ∀ call ∈ calls, call.isWiden = false) : Along Walk.call Walk.Legal walk calls := by
  induction calls generalizing walk with
  | nil => trivial
  | cons call calls ih =>
      refine ⟨?_, ih _ fun other member => quiet other (List.mem_cons_of_mem _ member)⟩
      have here := quiet call List.mem_cons_self
      cases call with
      | widen other => cases here
      | pollStore => trivial
      | onPage read => trivial
      | entry seq isAdmin verdict => trivial

/-- The driver is where the walk is: it has written what the walk told, but for
the frame that waits. -/
structure Follows (walk : Walk) (driver : Driver) (told : List Reply) : Prop where
  core : walk.core = driver.core
  told : walk.told = told ++ (driver.pending.map Reply.replay).toList

namespace Driver

variable (getPage : PageRequest → Option (List Entry)) (verdict : Nat → ReplayVerdict)

/-- One trip of the driver is a run of calls. -/
structure Trip (walk : Walk) (told : List Reply) (outcome : Driver × List Reply × Progress)
    (calls : List Call) : Prop where
  quiet : ∀ call ∈ calls, call.isWiden = false
  follows : Follows (run Walk.call walk calls) outcome.1 (told ++ outcome.2.1)
  start : (run Walk.call walk calls).beginSeq = walk.beginSeq
  finished : outcome.2.2 = .done →
    (run Walk.call walk calls).finished = true ∧ outcome.1.pending = none

/-- A trip that begins with one more call. -/
theorem Trip.cons {walk : Walk} {told : List Reply} {outcome : Driver × List Reply × Progress}
    {calls : List Call} {call : Call} (plain : call.isWiden = false)
    (same : (walk.call call).beginSeq = walk.beginSeq)
    (trip : Trip (walk.call call) told outcome calls) : Trip walk told outcome (call :: calls) where
  quiet := by
    intro other member
    rcases List.mem_cons.mp member with rfl | member
    · exact plain
    · exact trip.quiet other member
  follows := trip.follows
  start := trip.start.trans same
  finished := trip.finished

theorem advancePage_trip (page : List Entry) {core : ResendReplay} {walk : Walk}
    {told : List Reply} (here : walk.core = core) (written : walk.told = told) :
    ∃ calls, Trip walk told (advancePage getPage verdict core page) calls := by
  induction page generalizing core walk with
  | nil =>
      subst here
      rcases polled : walk.core.pollStore with ⟨step, after⟩
      cases step with
      | readPage request =>
          cases read : getPage request with
          | some page =>
              refine ⟨[.pollStore, .onPage (.read page.length (page.getLast?.map Entry.seq))],
                by simp [Call.isWiden], ⟨?_, ?_⟩, ?_, ?_⟩
              · simp [advancePage, Walk.call, polled, readResendPage, read]
              · simp [advancePage, Walk.call, polled, readResendPage, read, written, ReplayStep.told]
              · simp [Walk.call]
              · simp [advancePage, polled]
          | none =>
              refine ⟨[.pollStore, .onPage .failed], by simp [Call.isWiden], ⟨?_, ?_⟩, ?_, ?_⟩
              · simp [advancePage, Walk.call, polled, readResendPage, read]
              · simp [advancePage, Walk.call, polled, readResendPage, read, written, ReplayStep.told]
              · simp [Walk.call]
              · simp [advancePage, polled]
      | storeExhausted =>
          refine ⟨[.pollStore], by simp [Call.isWiden], ⟨?_, ?_⟩, ?_, ?_⟩
          · simp [advancePage, Walk.call, polled]
          · simp [advancePage, Walk.call, polled, written, ReplayStep.told]
          · simp [Walk.call]
          · simp [advancePage, polled]
      | complete gapFill =>
          refine ⟨[.pollStore], by simp [Call.isWiden], ⟨?_, ?_⟩, ?_, ?_⟩
          · simp [advancePage, Walk.call, polled]
          · simp [advancePage, Walk.call, polled, written]
          · simp [Walk.call]
          · simp [Walk.call, polled, ReplayStep.isComplete, advancePage]
  | cons entry page ih =>
      subst here
      unfold advancePage
      by_cases skips : walk.core.screenEntry entry.seq entry.isAdmin = .skip
      · rw [if_pos skips]
        exact ih rfl written
      · rw [if_neg skips]
        have same : (walk.call (.entry entry.seq entry.isAdmin (verdict entry.seq))).beginSeq =
            walk.beginSeq := by
          simp only [Walk.call, if_neg skips]
        rcases decided : walk.core.decideEntry entry.seq (verdict entry.seq) with ⟨action, after⟩
        have called : walk.call (.entry entry.seq entry.isAdmin (verdict entry.seq)) =
            { walk with core := after, told := walk.told ++ action.told } := by
          simp only [Walk.call, if_neg skips, decided]
        cases action with
        | skip =>
            have reached : (walk.call (.entry entry.seq entry.isAdmin (verdict entry.seq))).core =
                after := by rw [called]
            have silent : (walk.call (.entry entry.seq entry.isAdmin (verdict entry.seq))).told =
                told := by
              rw [called, written]
              simp [ReplayAction.told]
            obtain ⟨calls, trip⟩ := ih reached silent
            exact ⟨_, trip.cons rfl same⟩
        | replay seq =>
            refine ⟨[.entry entry.seq entry.isAdmin (verdict entry.seq)], by simp [Call.isWiden],
              ⟨?_, ?_⟩, same, by simp⟩
            · simp [called]
            · simp [called, written, ReplayAction.told]
        | gapFillThenReplay gapFill seq =>
            refine ⟨[.entry entry.seq entry.isAdmin (verdict entry.seq)], by simp [Call.isWiden],
              ⟨?_, ?_⟩, same, by simp⟩
            · simp [called]
            · simp [called, written, ReplayAction.told]

theorem advanceResend_trip {driver : Driver} {walk : Walk} {told : List Reply}
    (follows : Follows walk driver told) :
    ∃ calls, Trip walk told (advanceResend getPage verdict driver) calls := by
  unfold advanceResend
  have written := follows.told
  cases waiting : driver.pending with
  | none =>
      rw [waiting] at written
      exact advancePage_trip getPage verdict driver.page follows.core (by simpa using written)
  | some seq =>
      rw [waiting] at written
      refine ⟨[], by simp, ⟨follows.core, ?_⟩, rfl, by simp⟩
      simpa using written

/-- A whole replay is a run of calls that ends finished. -/
theorem drive_run {fuel : Nat} {driver last : Driver} {walk : Walk} {before told : List Reply}
    (follows : Follows walk driver before)
    (driven : drive getPage verdict fuel driver = some (told, last)) :
    ∃ calls, (∀ call ∈ calls, call.isWiden = false) ∧
      Follows (run Walk.call walk calls) last (before ++ told) ∧
      (run Walk.call walk calls).beginSeq = walk.beginSeq ∧
      (run Walk.call walk calls).finished = true ∧ last.pending = none := by
  induction fuel generalizing driver walk before told with
  | zero => cases driven
  | succ fuel ih =>
      obtain ⟨calls, trip⟩ := advanceResend_trip getPage verdict follows
      rcases outcome : advanceResend getPage verdict driver with ⟨next, frames, progress⟩
      rw [outcome] at trip
      obtain ⟨quiet, reached, start, finished⟩ := trip
      simp only [drive, outcome] at driven
      have onward : ∀ rest, drive getPage verdict fuel next = some rest →
          told = frames ++ rest.1 → last = rest.2 → ∃ calls, (∀ call ∈ calls, call.isWiden = false) ∧
          Follows (run Walk.call walk calls) last (before ++ told) ∧
          (run Walk.call walk calls).beginSeq = walk.beginSeq ∧
          (run Walk.call walk calls).finished = true ∧ last.pending = none := by
        rintro ⟨more, final⟩ later rfl rfl
        obtain ⟨rest, quietRest, followsRest, startRest, finishedRest⟩ := ih reached later
        refine ⟨calls ++ rest, ?_, ?_, ?_, ?_⟩
        · intro call member
          rcases List.mem_append.mp member with first | second
          · exact quiet call first
          · exact quietRest call second
        · rw [run_append, ← List.append_assoc]
          exact followsRest
        · rw [run_append, startRest, start]
        · rw [run_append]
          exact finishedRest
      cases progress with
      | done =>
          obtain ⟨rfl, rfl⟩ := Prod.mk.inj (Option.some.inj driven)
          exact ⟨calls, quiet, reached, start, finished rfl⟩
      | wrote =>
          obtain ⟨rest, later, same⟩ := Option.map_eq_some_iff.mp driven
          exact onward rest later (congrArg Prod.fst same).symm (congrArg Prod.snd same).symm
      | readPage =>
          obtain ⟨rest, later, same⟩ := Option.map_eq_some_iff.mp driven
          exact onward rest later (congrArg Prod.fst same).symm (congrArg Prod.snd same).symm

end Driver

end IronFix.Session
