import IronFix.Dictionary.Validator

/-!
# A bounded validation is a truncation

A validation with a limit runs beside one without, on the same message. What it
has committed is what the other has, cut at the limit; what it holds back in a
buffer is a first part of what the other holds there, and it lacks something
only where that lies behind the limit already.
-/

namespace IronFix.Dict

variable {limit : Nat}

/-- What a limit leaves of a list grown by one of two that start alike. -/
theorem take_append_of_beyond {α : Type} {base one two : List α} (start : one <+: two)
    (beyond : limit ≤ base.length + one.length) :
    (base ++ one).take limit = (base ++ two).take limit := by
  obtain ⟨more, rfl⟩ := start
  rw [← List.append_assoc]
  exact (List.take_append_of_le_length (by rw [List.length_append]; exact beyond)).symm

/-! ## Committed errors -/

/-- The sinks of the two runs: the one is the other cut at the limit. -/
structure Cut (limit : Nat) (bounded unbounded : ErrorSink) : Prop where
  whole : unbounded.truncated = false
  errors : bounded.errors = unbounded.errors.take limit
  truncated : bounded.truncated = decide (limit < unbounded.errors.length)

/-- Errors pushed under a limit are appended as far as it goes. -/
theorem pushAll_some (sink : ErrorSink) (errors : List ValidationError)
    (within : sink.errors.length ≤ limit) :
    (errors.foldl (ErrorSink.push (some limit)) sink).errors = (sink.errors ++ errors).take limit ∧
    (errors.foldl (ErrorSink.push (some limit)) sink).truncated =
      (sink.truncated || decide (limit < (sink.errors ++ errors).length)) := by
  induction errors generalizing sink with
  | nil =>
      rw [List.append_nil, List.take_of_length_le within, decide_eq_false (Nat.not_lt.mpr within),
        Bool.or_false]
      exact ⟨rfl, rfl⟩
  | cons error rest ih =>
      rw [List.foldl_cons]
      unfold ErrorSink.push fits
      by_cases fitting : sink.errors.length < limit
      · rw [if_pos (decide_eq_true fitting)]
        have more := ih { sink with errors := sink.errors ++ [error] } (by
          rw [List.length_append]
          exact fitting)
        dsimp only at more
        rwa [List.append_assoc, List.singleton_append] at more
      · have full : sink.errors.length = limit := by omega
        rw [if_neg (by simpa using fitting)]
        obtain ⟨same, refused⟩ := ih { sink with truncated := true } within
        refine ⟨same.trans ?_, refused.trans ?_⟩
        · rw [List.take_left' full, List.take_left' full]
        · rw [Bool.true_or, decide_eq_true, Bool.or_true]
          rw [List.length_append, List.length_cons]
          omega

/-- Without a limit they all are. -/
theorem pushAll_none (sink : ErrorSink) (errors : List ValidationError) :
    (errors.foldl (ErrorSink.push none) sink).errors = sink.errors ++ errors ∧
    (errors.foldl (ErrorSink.push none) sink).truncated = sink.truncated := by
  induction errors generalizing sink with
  | nil => exact ⟨(List.append_nil _).symm, rfl⟩
  | cons error rest ih =>
      obtain ⟨same, refused⟩ := ih { sink with errors := sink.errors ++ [error] }
      refine ⟨same.trans ?_, refused⟩
      show sink.errors ++ [error] ++ rest = _
      rw [List.append_assoc, List.singleton_append]

theorem take_append_take {α : Type} {base more : List α} :
    (base.take limit ++ more).take limit = (base ++ more).take limit := by
  rw [List.take_append, List.take_append, List.take_take, Nat.min_self, List.length_take]
  congr 2
  omega

namespace Cut

variable {bounded unbounded : ErrorSink}

theorem start : Cut limit .empty .empty := ⟨rfl, (List.take_nil).symm, rfl⟩

theorem length (cut : Cut limit bounded unbounded) :
    bounded.errors.length = min limit unbounded.errors.length := by
  rw [cut.errors, List.length_take]

theorem pushAll (cut : Cut limit bounded unbounded) (errors : List ValidationError) :
    Cut limit (errors.foldl (ErrorSink.push (some limit)) bounded)
      (errors.foldl (ErrorSink.push none) unbounded) := by
  have length := cut.length
  have within : bounded.errors.length ≤ limit := by omega
  obtain ⟨same, refused⟩ := pushAll_some bounded errors within
  obtain ⟨same', refused'⟩ := pushAll_none unbounded errors
  refine ⟨refused'.trans cut.whole, ?_, ?_⟩
  · rw [same, same', cut.errors, take_append_take]
  · rw [refused, same', cut.truncated, ← Bool.decide_or, decide_eq_decide, List.length_append,
      List.length_append]
    omega

theorem push (cut : Cut limit bounded unbounded) (error : ValidationError) :
    Cut limit (bounded.push (some limit) error) (unbounded.push none error) := cut.pushAll [error]

/-- Committed room only shrinks. -/
theorem push_grows (sink : ErrorSink) (limit : Option Nat) (error : ValidationError) :
    sink.errors.length ≤ (sink.push limit error).errors.length := by
  unfold ErrorSink.push
  split
  · show _ ≤ (sink.errors ++ [error]).length
    rw [List.length_append]
    exact Nat.le_add_right _ _
  · exact Nat.le_refl _

theorem push_provisional (sink : ErrorSink) (limit : Option Nat) (error : ValidationError) :
    (sink.push limit error).provisional = sink.provisional := by
  unfold ErrorSink.push
  split <;> rfl

end Cut

/-! ## Errors held back -/

/-- The errors held in a list of buffers. -/
def held (buffers : List Pending) : Nat := (buffers.map (·.errors.length)).sum

/-- The buffers of the two runs, innermost first, with `committed` errors in
the bounded result. A buffer that lacks something is full, and what lies inside
it is empty. -/
def Follows (limit committed : Nat) : List Pending → List Pending → Prop
  | [], [] => True
  | bounded :: outer, unbounded :: outer' =>
      Follows limit committed outer outer' ∧
      unbounded.overflowed = false ∧
      bounded.errors <+: unbounded.errors ∧
      bounded.overflowed = decide (bounded.errors.length < unbounded.errors.length) ∧
      (bounded.overflowed = true → limit ≤ committed + held (bounded :: outer)) ∧
      ∀ other ∈ outer, other.overflowed = true → bounded.errors = []
  | [], _ :: _ => False
  | _ :: _, [] => False

section Follows

variable {committed : Nat} {bounded unbounded : Pending} {outer outer' buffers buffers' : List Pending}

theorem held_cons : held (bounded :: outer) = bounded.errors.length + held outer := by
  unfold held
  rw [List.map_cons, List.sum_cons]

theorem held_adopt {child : Pending} :
    held (child :: bounded :: outer) = held (ErrorSink.adopt bounded child :: outer) := by
  rw [held_cons, held_cons, held_cons]
  show _ = (bounded.errors ++ child.errors).length + _
  rw [List.length_append]
  omega

theorem Follows.length (follows : Follows limit committed buffers buffers') :
    buffers.length = buffers'.length := by
  induction buffers generalizing buffers' with
  | nil =>
      cases buffers' with
      | nil => rfl
      | cons _ _ => exact follows.elim
  | cons bounded outer ih =>
      cases buffers' with
      | nil => exact follows.elim
      | cons unbounded outer' => exact congrArg Nat.succ (ih follows.1)

/-- The outermost buffers. -/
theorem Follows.last {stack stack' : List Pending}
    (follows : Follows limit committed (stack ++ [bounded]) (stack' ++ [unbounded])) :
    Follows limit committed [bounded] [unbounded] := by
  have depth : (stack ++ [bounded]).length = (stack' ++ [unbounded]).length := follows.length
  induction stack generalizing stack' with
  | nil =>
      cases stack' with
      | nil => exact follows
      | cons _ outer' => simp at depth
  | cons _ outer ih =>
      cases stack' with
      | nil => simp at depth
      | cons _ outer' => exact ih follows.1 (Nat.succ.inj depth)

/-- Errors committed meanwhile take nothing back. -/
theorem Follows.mono {more : Nat} (follows : Follows limit committed buffers buffers')
    (grown : committed ≤ more) : Follows limit more buffers buffers' := by
  induction buffers generalizing buffers' with
  | nil =>
      cases buffers' with
      | nil => trivial
      | cons _ _ => exact follows.elim
  | cons bounded outer ih =>
      cases buffers' with
      | nil => exact follows.elim
      | cons unbounded outer' =>
          obtain ⟨below, whole, start, overflowed, full, inside⟩ := follows
          exact ⟨ih below, whole, start, overflowed,
            fun lacks => Nat.le_trans (full lacks) (Nat.add_le_add_right grown _), inside⟩

/-- Once a buffer lacks something, the limit is used up. -/
theorem Follows.full (follows : Follows limit committed buffers buffers')
    (lacks : ∃ buffer ∈ buffers, buffer.overflowed = true) : limit ≤ committed + held buffers := by
  induction buffers generalizing buffers' with
  | nil =>
      obtain ⟨_, mem, _⟩ := lacks
      exact absurd mem List.not_mem_nil
  | cons bounded outer ih =>
      cases buffers' with
      | nil => exact follows.elim
      | cons unbounded outer' =>
          obtain ⟨below, _, _, _, full, _⟩ := follows
          obtain ⟨buffer, mem, overflowed⟩ := lacks
          rcases List.mem_cons.mp mem with rfl | outside
          · exact full overflowed
          · have used := ih below ⟨buffer, outside, overflowed⟩
            rw [held_cons]
            omega

/-- A group instance starts with an empty buffer. -/
theorem Follows.enter (follows : Follows limit committed buffers buffers') :
    Follows limit committed (.empty :: buffers) (.empty :: buffers') :=
  ⟨follows, rfl, List.prefix_refl _, rfl, fun lacks => absurd lacks Bool.false_ne_true, fun _ _ _ => rfl⟩

/-- A buffer that lacks nothing is the other's. -/
theorem Follows.same (follows : Follows limit committed (bounded :: outer) (unbounded :: outer'))
    (complete : bounded.overflowed = false) : bounded.errors = unbounded.errors := by
  obtain ⟨_, _, start, overflowed, _, _⟩ := follows
  rw [complete, eq_comm, decide_eq_false_iff_not] at overflowed
  exact start.eq_of_length (Nat.le_antisymm start.length_le (Nat.le_of_not_lt overflowed))

/-- An error held in the innermost buffer of both, while there is room. -/
theorem Follows.hold_fits (follows : Follows limit committed (bounded :: outer) (unbounded :: outer'))
    (error : ValidationError) (room : committed + held (bounded :: outer) < limit) :
    Follows limit committed ({ bounded with errors := bounded.errors ++ [error] } :: outer)
      ({ unbounded with errors := unbounded.errors ++ [error] } :: outer') := by
  have complete : ∀ buffer ∈ bounded :: outer, buffer.overflowed = false := by
    intro buffer mem
    by_contra lacks
    exact absurd (follows.full ⟨buffer, mem, Bool.not_eq_false _ ▸ lacks⟩) (Nat.not_le.mpr room)
  have same := follows.same (complete bounded List.mem_cons_self)
  obtain ⟨below, whole, _, _, _, _⟩ := follows
  refine ⟨below, whole, ?_, ?_, ?_, ?_⟩
  · rw [same]
  · show bounded.overflowed = decide ((bounded.errors ++ [error]).length <
      (unbounded.errors ++ [error]).length)
    rw [same, complete bounded List.mem_cons_self, eq_comm, decide_eq_false_iff_not]
    exact Nat.lt_irrefl _
  · intro lacks
    rw [show bounded.overflowed = false from complete bounded List.mem_cons_self] at lacks
    cases lacks
  · intro other mem lacks
    rw [complete other (List.mem_cons_of_mem _ mem)] at lacks
    cases lacks

/-- An error the bounded run refuses lies behind the limit. -/
theorem Follows.hold_refused (follows : Follows limit committed (bounded :: outer) (unbounded :: outer'))
    (error : ValidationError) (used : limit ≤ committed + held (bounded :: outer)) :
    Follows limit committed ({ bounded with overflowed := true } :: outer)
      ({ unbounded with errors := unbounded.errors ++ [error] } :: outer') := by
  obtain ⟨below, whole, start, _, _, inside⟩ := follows
  refine ⟨below, whole, start.trans (List.prefix_append _ _), ?_, fun _ => used, inside⟩
  show true = decide (bounded.errors.length < (unbounded.errors ++ [error]).length)
  rw [List.length_append, List.length_singleton]
  exact (decide_eq_true (Nat.lt_succ_of_le start.length_le)).symm

/-- A malformed group's buffer is dropped. -/
theorem Follows.release (follows : Follows limit committed (bounded :: outer) (unbounded :: outer')) :
    Follows limit committed outer outer' := follows.1

/-- A well-formed group's buffer joins the one around it. -/
theorem Follows.adopt {child child' : Pending}
    (follows : Follows limit committed (child :: bounded :: outer) (child' :: unbounded :: outer')) :
    Follows limit committed (ErrorSink.adopt bounded child :: outer)
      (ErrorSink.adopt unbounded child' :: outer') := by
  obtain ⟨inner, whole, start, overflowed, full, inside⟩ := follows
  obtain ⟨below, whole', start', overflowed', full', inside'⟩ := inner
  refine ⟨below, ?_, ?_, ?_, ?_, ?_⟩
  · show (unbounded.overflowed || child'.overflowed) = false
    rw [whole', whole]
    rfl
  · show bounded.errors ++ child.errors <+: unbounded.errors ++ child'.errors
    cases lacks : bounded.overflowed with
    | true =>
        rw [inside bounded List.mem_cons_self lacks, List.append_nil]
        exact start'.trans (List.prefix_append _ _)
    | false =>
        have same := Follows.same (⟨below, whole', start', overflowed', full', inside'⟩ :
          Follows limit committed (bounded :: outer) (unbounded :: outer')) lacks
        rw [same]
        exact (List.prefix_append_right_inj _).mpr start
  · show (bounded.overflowed || child.overflowed) = decide ((bounded.errors ++ child.errors).length <
      (unbounded.errors ++ child'.errors).length)
    have shorter := start.length_le
    have shorter' := start'.length_le
    rw [overflowed, overflowed', List.length_append, List.length_append, ← Bool.decide_or,
      decide_eq_decide]
    omega
  · intro lacks
    rw [← held_adopt]
    rcases Bool.or_eq_true _ _ ▸ lacks with outside | here
    · have used := full' outside
      rw [held_cons]
      omega
    · exact full here
  · intro other mem lacks
    show bounded.errors ++ child.errors = []
    rw [inside' other mem lacks, inside other (List.mem_cons_of_mem _ mem) lacks]
    rfl

end Follows

/-! ## The structural walk -/

/-- The buffers of a walk, innermost first. -/
def Checks.buffers (checks : Checks) : List Pending := checks.stack ++ [checks.accepted]

/-- The two runs of a walk. -/
structure Beside (limit : Nat) (bounded unbounded : Checks) : Prop where
  cut : Cut limit bounded.sink unbounded.sink
  counted : bounded.sink.provisional = held bounded.buffers
  follows : Follows limit bounded.sink.errors.length bounded.buffers unbounded.buffers

section Beside

variable {bounded unbounded : Checks} (beside : Beside limit bounded unbounded)

include beside

theorem Beside.push (error : ValidationError) :
    Beside limit (bounded.push (some limit) error) (unbounded.push none error) where
  cut := beside.cut.push error
  counted := (Cut.push_provisional _ _ _).trans beside.counted
  follows := beside.follows.mono (Cut.push_grows _ _ _)

theorem Beside.enter : Beside limit { bounded with stack := .empty :: bounded.stack }
    { unbounded with stack := .empty :: unbounded.stack } where
  cut := beside.cut
  counted := by
    show bounded.sink.provisional = held (.empty :: bounded.buffers)
    rw [held_cons, beside.counted]
    exact (Nat.zero_add _).symm
  follows := beside.follows.enter

/-- Both runs are inside as many group instances. -/
theorem Beside.depth : bounded.stack.length = unbounded.stack.length := by
  have length := beside.follows.length
  unfold Checks.buffers at length
  rw [List.length_append, List.length_append] at length
  exact Nat.succ.inj length

theorem Beside.hold (error : ValidationError) :
    Beside limit (bounded.hold (some limit) error) (unbounded.hold none error) := by
  have depth := beside.depth
  obtain ⟨cut, counted, follows⟩ := beside
  obtain ⟨sink, stack, accepted⟩ := bounded
  obtain ⟨sink', stack', accepted'⟩ := unbounded
  cases stack with
  | nil =>
      obtain rfl : stack' = [] := List.length_eq_zero_iff.mp depth.symm
      exact ⟨cut, counted, follows⟩
  | cons pending outer =>
      cases stack' with
      | nil => exact absurd depth (Nat.succ_ne_zero _)
      | cons pending' outer' =>
          have counted : sink.provisional = held (pending :: (outer ++ [accepted])) := counted
          have follows : Follows limit sink.errors.length (pending :: (outer ++ [accepted]))
            (pending' :: (outer' ++ [accepted'])) := follows
          unfold Checks.hold ErrorSink.hold fits
          dsimp only
          rw [if_pos rfl]
          by_cases room : sink.errors.length + sink.provisional < limit
          · rw [if_pos (decide_eq_true room)]
            refine ⟨⟨cut.whole, cut.errors, cut.truncated⟩, ?_, ?_⟩
            · show sink.provisional + 1 = held ({ pending with errors := pending.errors ++ [error] } ::
                (outer ++ [accepted]))
              rw [held_cons, List.length_append, List.length_singleton, counted, held_cons]
              omega
            · exact follows.hold_fits error (counted ▸ room)
          · rw [if_neg (by simpa using room)]
            exact ⟨⟨cut.whole, cut.errors, cut.truncated⟩, counted,
              follows.hold_refused error (counted ▸ Nat.le_of_not_lt room)⟩

theorem Beside.holdAll (errors : List ValidationError) :
    Beside limit (errors.foldl (Checks.hold (some limit)) bounded)
      (errors.foldl (Checks.hold none) unbounded) := by
  induction errors generalizing bounded unbounded with
  | nil => exact beside
  | cons error rest ih => exact ih (beside.hold error)

theorem Beside.leave (wellFormed : Bool) :
    Beside limit (bounded.leaveGroup wellFormed) (unbounded.leaveGroup wellFormed) := by
  have depth := beside.depth
  obtain ⟨cut, counted, follows⟩ := beside
  obtain ⟨sink, stack, accepted⟩ := bounded
  obtain ⟨sink', stack', accepted'⟩ := unbounded
  cases stack with
  | nil =>
      obtain rfl : stack' = [] := List.length_eq_zero_iff.mp depth.symm
      exact ⟨cut, counted, follows⟩
  | cons pending outer =>
      cases stack' with
      | nil => exact absurd depth (Nat.succ_ne_zero _)
      | cons pending' outer' =>
          have counted : sink.provisional = held (pending :: (outer ++ [accepted])) := counted
          have follows : Follows limit sink.errors.length (pending :: (outer ++ [accepted]))
            (pending' :: (outer' ++ [accepted'])) := follows
          unfold Checks.leaveGroup
          dsimp only
          cases wellFormed with
          | false =>
              refine ⟨⟨cut.whole, cut.errors, cut.truncated⟩, ?_, follows.release⟩
              rw [held_cons] at counted
              show (if pending.errors.length ≤ sink.provisional
                then sink.provisional - pending.errors.length else sink.provisional) =
                  held (outer ++ [accepted])
              rw [if_pos (by omega)]
              omega
          | true =>
              have depth : outer.length = outer'.length := Nat.succ.inj depth
              cases outer with
              | nil =>
                  obtain rfl : outer' = [] := List.length_eq_zero_iff.mp depth.symm
                  refine ⟨cut, ?_, follows.adopt⟩
                  show sink.provisional = held [ErrorSink.adopt accepted pending]
                  rw [counted]
                  exact held_adopt
              | cons parent outer =>
                  cases outer' with
                  | nil => exact absurd depth (Nat.succ_ne_zero _)
                  | cons parent' outer' =>
                      refine ⟨cut, ?_, follows.adopt⟩
                      show sink.provisional = held (ErrorSink.adopt parent pending :: (outer ++ [accepted]))
                      rw [counted]
                      exact held_adopt

theorem Beside.visit (tags : TagResolver) (event : Event) :
    Beside limit (bounded.visit (some limit) tags event) (unbounded.visit none tags event) := by
  cases event with
  | enterGroup group => exact beside.enter
  | invalidCount group value => exact beside.push _
  | delimiterMismatch group found => exact beside.push _
  | repeatedTag group tag => exact beside.push _
  | entryClosed group entry seen => exact beside.holdAll _
  | countMismatch group declared actual => exact beside.push _
  | tooDeep group => exact beside.push _
  | leaveGroup group wellFormed entries => exact beside.leave wellFormed

theorem Beside.visitAll (tags : TagResolver) (events : List Event) :
    Beside limit (events.foldl (Checks.visit (some limit) tags) bounded)
      (events.foldl (Checks.visit none tags) unbounded) := by
  induction events generalizing bounded unbounded with
  | nil => exact beside
  | cons event rest ih => exact ih (beside.visit tags event)

/-- What the walk meets does not depend on what is collected. -/
theorem Beside.walk (tags : TagResolver) (level : Level) (msgType : String) (fuel : Nat)
    (seen : List Nat) (fields : List TagValue.FieldRef) :
    Beside limit (Checks.walkMessage (some limit) tags level msgType fuel bounded seen fields).1
        (Checks.walkMessage none tags level msgType fuel unbounded seen fields).1 ∧
      (Checks.walkMessage (some limit) tags level msgType fuel bounded seen fields).2 =
        (Checks.walkMessage none tags level msgType fuel unbounded seen fields).2 := by
  induction fuel generalizing bounded unbounded seen fields with
  | zero => exact ⟨beside, rfl⟩
  | succ fuel ih =>
      cases fields with
      | nil => exact ⟨beside, rfl⟩
      | cons field rest =>
          rw [Checks.walkMessage, Checks.walkMessage]
          cases tags.field field.tag with
          | none => exact ih beside seen rest
          | some definition =>
              have afterTag : Beside limit
                  (if seen.contains field.tag then
                    bounded.push (some limit) (.duplicateTag field.tag definition.name) else bounded)
                  (if seen.contains field.tag then
                    unbounded.push none (.duplicateTag field.tag definition.name) else unbounded) := by
                split
                · exact beside.push _
                · exact beside
              dsimp only
              cases level.group field.tag with
              | some group => exact ih (afterTag.visitAll tags _) _ _
              | none =>
                  dsimp only
                  cases level.allows field.tag with
                  | true => exact ih afterTag _ rest
                  | false => exact ih (afterTag.push _) _ rest

/-- At the end the errors of the well-formed groups are committed. -/
theorem Beside.commit : Cut limit (bounded.sink.commit (some limit) bounded.accepted)
    (unbounded.sink.commit none unbounded.accepted) := by
  have cut := beside.cut
  have length := cut.length
  obtain ⟨-, whole, start, overflowed, full, -⟩ := beside.follows.last
  have shorter := start.length_le
  have marked : (if bounded.accepted.overflowed then
      { bounded.sink.forget bounded.accepted.errors.length with truncated := true }
      else bounded.sink.forget bounded.accepted.errors.length) =
      { bounded.sink.forget bounded.accepted.errors.length with
        truncated := bounded.sink.truncated || bounded.accepted.overflowed } := by
    cases bounded.accepted.overflowed with
    | true =>
        rw [Bool.or_true]
        rfl
    | false =>
        rw [Bool.or_false]
        rfl
  unfold ErrorSink.commit
  dsimp only
  rw [marked, whole, if_neg Bool.false_ne_true]
  have within : bounded.sink.errors.length ≤ limit := by omega
  obtain ⟨same, refused⟩ := pushAll_some { bounded.sink.forget bounded.accepted.errors.length with
    truncated := bounded.sink.truncated || bounded.accepted.overflowed } bounded.accepted.errors within
  obtain ⟨same', refused'⟩ := pushAll_none (unbounded.sink.forget unbounded.accepted.errors.length)
    unbounded.accepted.errors
  refine ⟨refused'.trans cut.whole, ?_, ?_⟩
  · rw [same, same']
    show (bounded.sink.errors ++ bounded.accepted.errors).take limit =
      (unbounded.sink.errors ++ unbounded.accepted.errors).take limit
    rw [cut.errors, take_append_take]
    cases lacks : bounded.accepted.overflowed with
    | false => rw [beside.follows.last.same lacks]
    | true =>
        have used := full lacks
        rw [held_cons] at used
        exact take_append_of_beyond start (by
          have none : held [] = 0 := rfl
          omega)
  · rw [refused, same']
    show ((bounded.sink.truncated || bounded.accepted.overflowed) ||
        decide (limit < (bounded.sink.errors ++ bounded.accepted.errors).length)) =
      decide (limit < (unbounded.sink.errors ++ unbounded.accepted.errors).length)
    have used : bounded.accepted.errors.length < unbounded.accepted.errors.length →
        limit ≤ bounded.sink.errors.length + bounded.accepted.errors.length := by
      intro lacks
      have used := full (overflowed.trans (decide_eq_true lacks))
      rwa [held_cons] at used
    rw [cut.truncated, overflowed, ← Bool.decide_or, ← Bool.decide_or, decide_eq_decide,
      List.length_append, List.length_append]
    omega

end Beside

/-! ## The validator -/

/-- What is answered at the end, by a run without a limit and by one with. -/
theorem Cut.finish {bounded unbounded : ErrorSink} (cut : Cut limit bounded unbounded) :
    unbounded.finish = (if unbounded.errors = [] then .ok () else .error unbounded.errors) ∧
    bounded.finish =
      (if unbounded.errors = [] then .ok ()
      else if unbounded.errors.length ≤ limit then .error unbounded.errors
      else .error (unbounded.errors.take limit ++ [.errorLimitReached MAX_VALIDATION_ERRORS])) := by
  unfold ErrorSink.finish
  rw [cut.whole, cut.truncated, cut.errors]
  constructor
  · simp
  · by_cases empty : unbounded.errors = []
    · simp [empty]
    · rw [if_neg empty]
      by_cases within : unbounded.errors.length ≤ limit
      · have complete : ¬limit < unbounded.errors.length := Nat.not_lt.mpr within
        simp [within, complete, empty, List.take_of_length_le within]
      · have cutOff : limit < unbounded.errors.length := Nat.lt_of_not_le within
        simp [within, cutOff]

/-- The two runs before the walk, which hold nothing back. -/
structure Fresh (limit : Nat) (bounded unbounded : ErrorSink) : Prop where
  cut : Cut limit bounded unbounded
  nothing : bounded.provisional = 0

section Fresh

variable {bounded unbounded : ErrorSink} (fresh : Fresh limit bounded unbounded)

include fresh

theorem Fresh.push (error : ValidationError) :
    Fresh limit (bounded.push (some limit) error) (unbounded.push none error) :=
  ⟨fresh.cut.push error, (Cut.push_provisional _ _ _).trans fresh.nothing⟩

theorem Fresh.pushAll (errors : List ValidationError) :
    Fresh limit (errors.foldl (ErrorSink.push (some limit)) bounded)
      (errors.foldl (ErrorSink.push none) unbounded) := by
  induction errors generalizing bounded unbounded with
  | nil => exact fresh
  | cons error rest ih => exact ih (fresh.push error)

theorem Fresh.checkBeginString (validator : Validator) (fields : List TagValue.FieldRef) :
    Fresh limit (validator.checkBeginString (some limit) fields bounded)
      (validator.checkBeginString none fields unbounded) := by
  unfold Validator.checkBeginString
  split
  · dsimp only
    split
    · exact fresh.push _
    · exact fresh
  · exact fresh

theorem Fresh.checkValue (tags : TagResolver) (field : TagValue.FieldRef) :
    Fresh limit (tags.checkValue (some limit) bounded field) (tags.checkValue none unbounded field) := by
  unfold TagResolver.checkValue
  cases tags.field field.tag with
  | none => exact fresh.push _
  | some definition =>
      dsimp only
      split
      · exact fresh.push _
      · cases definition.values with
        | none => exact fresh
        | some values =>
            dsimp only
            split
            · exact fresh
            · exact fresh.push _

theorem Fresh.checkValues (tags : TagResolver) (fields : List TagValue.FieldRef) :
    Fresh limit (fields.foldl (tags.checkValue (some limit)) bounded)
      (fields.foldl (tags.checkValue none) unbounded) := by
  induction fields generalizing bounded unbounded with
  | nil => exact fresh
  | cons field rest ih => exact ih (fresh.checkValue tags field)

/-- A walk starts with nothing held back. -/
theorem Fresh.beside : Beside limit ⟨bounded, [], .empty⟩ ⟨unbounded, [], .empty⟩ where
  cut := fresh.cut
  counted := fresh.nothing
  follows := ⟨trivial, rfl, List.prefix_refl _, rfl, fun lacks => absurd lacks Bool.false_ne_true,
    fun _ mem => absurd mem List.not_mem_nil⟩

theorem Fresh.checkMessage (validator : Validator) (definition : MessageDef) (body : Side)
    (msgType : String) (fields : List TagValue.FieldRef) :
    Cut limit (validator.checkMessage (some limit) definition body msgType fields bounded)
      (validator.checkMessage none definition body msgType fields unbounded) := by
  unfold Validator.checkMessage
  obtain ⟨scope, builder⟩ :=
    ScopeBuilder.expand validator.transport (validator.dict body) definition
  dsimp only
  let tags : TagResolver := ⟨validator, body, scope.envelope⟩
  have walked := ((fresh.pushAll builder.errors).checkValues tags fields).beside.walk tags scope.level
    msgType fields.length [] fields
  obtain ⟨beside, sameSeen⟩ := walked
  rw [sameSeen]
  exact (beside.commit.pushAll _).pushAll _

end Fresh

/-- The two runs of a validation end in sinks of which one is the other cut. -/
theorem validateWith_cut (validator : Validator) (message : TagValue.RawMessage) :
    ∃ bounded unbounded, Cut limit bounded unbounded ∧
      validator.validateWith (some limit) message = bounded.finish ∧
      validator.validateWith none message = unbounded.finish := by
  have started : Fresh limit .empty .empty := ⟨.start, rfl⟩
  have began := started.checkBeginString validator message.fields
  unfold Validator.validateWith
  dsimp only
  split
  · exact ⟨_, _, began.cut.push _, rfl, rfl⟩
  · exact ⟨_, _, began.checkMessage _ _ _ _ _, rfl, rfl⟩

/-- A validation answers what one without a limit finds: nothing where that is
nothing, all of it up to the limit, and beyond that the first of it, in order,
with a mark. -/
theorem validate_truncates (validator : Validator) (message : TagValue.RawMessage) :
    validator.validate message =
      if validator.allErrors message = [] then .ok ()
      else if (validator.allErrors message).length ≤ MAX_VALIDATION_ERRORS then
        .error (validator.allErrors message)
      else .error ((validator.allErrors message).take MAX_VALIDATION_ERRORS ++
        [.errorLimitReached MAX_VALIDATION_ERRORS]) := by
  obtain ⟨bounded, unbounded, cut, one, other⟩ :=
    @validateWith_cut MAX_VALIDATION_ERRORS validator message
  obtain ⟨whole, limited⟩ := cut.finish
  have all : validator.allErrors message = unbounded.errors := by
    unfold Validator.allErrors
    rw [other, whole]
    split
    · rename_i isOk
      split at isOk
      · rename_i empty
        exact empty.symm
      · cases isOk
    · rename_i errors isError
      split at isError
      · cases isError
      · exact (Except.error.inj isError).symm
  rw [all]
  exact one.trans limited

end IronFix.Dict
