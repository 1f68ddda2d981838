import IronFix.Core.Bytes

/-!
# The LENGTH/DATA pairs

A DATA field is a counted byte string that may contain SOH and `=`; the LENGTH
field right before it declares its byte count. The pairs are wire syntax, fixed
by the specification.
-/

namespace IronFix.TagValue

def FIRST_LENGTH_TAG : Nat := 90
def FIRST_DATA_TAG : Nat := 89

/-- The `(length_tag, data_tag)` pairs, in the order of the arms of
`paired_data_tag`. -/
def LENGTH_DATA_PAIRS : List (Nat × Nat) :=
  [(90, 91), (93, 89), (95, 96), (212, 213), (348, 349), (350, 351), (352, 353), (354, 355),
   (356, 357), (358, 359), (360, 361), (362, 363), (364, 365), (445, 446), (618, 619), (621, 622),
   (1184, 1185), (1277, 1278), (1280, 1281), (1282, 1283), (1397, 1398), (1401, 1402),
   (1403, 1404), (1468, 1469), (1525, 1527), (1578, 1579), (1620, 1621), (1664, 1665),
   (1678, 1697), (1733, 1734), (1871, 1872), (1874, 1875), (2072, 2073), (2074, 2075),
   (2111, 2112), (2179, 2180), (2287, 2288), (2351, 2352), (2372, 2371), (2481, 2482),
   (2494, 2493), (2522, 2521), (2637, 2638), (2651, 2652), (2665, 2666), (2715, 2716),
   (2718, 2719), (2721, 2722), (2797, 2798), (2802, 2801), (2809, 2808), (2815, 2814),
   (40004, 40005), (40008, 40009), (40978, 40979), (40980, 40981), (40982, 40983), (40984, 40985),
   (40986, 40987), (40988, 40989), (41083, 41084), (41101, 41102), (41107, 41108), (41256, 41257),
   (41320, 41321), (41324, 41325), (41458, 41459), (41476, 41477), (41482, 41483), (41653, 41654),
   (41710, 41711), (41806, 41807), (41811, 41812), (41873, 41874), (41969, 41970), (42025, 42026),
   (42171, 42172), (42451, 42452), (42652, 42653), (42947, 42948), (43109, 42684), (43110, 42486),
   (43111, 42982)]

/-- The DATA tag paired with `lengthTag`. -/
def pairedDataTag (lengthTag : Nat) : Option Nat :=
  if lengthTag < FIRST_LENGTH_TAG then none else LENGTH_DATA_PAIRS.lookup lengthTag

/-- The DATA tags, in the order `is_data_tag` lists them. -/
def DATA_TAGS : List Nat :=
  [89, 91, 96, 213, 349, 351, 353, 355, 357, 359, 361, 363, 365, 446, 619, 622, 1185, 1278, 1281,
   1283, 1398, 1402, 1404, 1469, 1527, 1579, 1621, 1665, 1697, 1734, 1872, 1875, 2073, 2075, 2112,
   2180, 2288, 2352, 2371, 2482, 2493, 2521, 2638, 2652, 2666, 2716, 2719, 2722, 2798, 2801, 2808,
   2814, 40005, 40009, 40979, 40981, 40983, 40985, 40987, 40989, 41084, 41102, 41108, 41257,
   41321, 41325, 41459, 41477, 41483, 41654, 41711, 41807, 41812, 41874, 41970, 42026, 42172,
   42452, 42486, 42653, 42684, 42948, 42982]

def isDataTag (tag : Nat) : Bool :=
  if tag < FIRST_DATA_TAG then false else DATA_TAGS.contains tag

/-- What every pair satisfies: neither half is a framing field or MsgType, the
DATA half is listed as one, and it frames no further field. -/
def pairLegal (pair : Nat × Nat) : Bool :=
  FIRST_LENGTH_TAG ≤ pair.1 && pair.2 != 0 && pair.2 != 10 && isDataTag pair.2 &&
    (pairedDataTag pair.2).isNone

theorem pairs_legal : LENGTH_DATA_PAIRS.all pairLegal = true := by decide +kernel

theorem pairedDataTag_mem {lengthTag dataTag : Nat} (h : pairedDataTag lengthTag = some dataTag) :
    (lengthTag, dataTag) ∈ LENGTH_DATA_PAIRS := by
  unfold pairedDataTag at h
  split at h
  · cases h
  · rw [List.lookup_eq_some_iff] at h
    obtain ⟨before, after, split, _⟩ := h
    rw [split]
    exact List.mem_append_right _ List.mem_cons_self

theorem pairedDataTag_legal {lengthTag dataTag : Nat} (h : pairedDataTag lengthTag = some dataTag) :
    pairLegal (lengthTag, dataTag) = true :=
  List.all_eq_true.mp pairs_legal _ (pairedDataTag_mem h)

/-- No DATA field announces another. -/
theorem pairedDataTag_data {lengthTag dataTag : Nat} (h : pairedDataTag lengthTag = some dataTag) :
    pairedDataTag dataTag = none := by
  have legal := pairedDataTag_legal h
  simp only [pairLegal, Bool.and_eq_true, Option.isNone_iff_eq_none] at legal
  exact legal.2

/-- A DATA field is never the CheckSum. -/
theorem pairedDataTag_ne_checksum {lengthTag dataTag : Nat}
    (h : pairedDataTag lengthTag = some dataTag) : dataTag ≠ 10 := by
  have legal := pairedDataTag_legal h
  simp only [pairLegal, Bool.and_eq_true, bne_iff_ne] at legal
  exact legal.1.1.2

/-- The framing fields and MsgType announce nothing. -/
theorem pairedDataTag_low {tag : Nat} (low : tag < FIRST_LENGTH_TAG) : pairedDataTag tag = none :=
  if_pos low

end IronFix.TagValue
