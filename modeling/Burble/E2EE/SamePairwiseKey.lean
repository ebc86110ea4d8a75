import Mathlib
import Burble.E2EE.ContextStrings

namespace Burble.E2EE

/-- What HKDF is given beside the shared secret. -/
structure HkdfContext where
  salt : List UInt8
  info : List UInt8
  deriving DecidableEq

section Contexts
variable (sha256 : List UInt8 → List UInt8)

def Elixir.pairwiseContext (roomId : String) (epoch : Nat) (myPeerId peerId : String) : HkdfContext :=
  { salt := sha256 (Elixir.pairwiseSaltText roomId epoch), info := Elixir.pairwiseInfo myPeerId peerId }

def Browser.pairwiseContext (roomId : String) (epoch : Nat) (myPeerId theirPeerId : String) : HkdfContext :=
  { salt := sha256 (Browser.pairwiseSaltText roomId epoch), info := Browser.pairwiseInfo myPeerId theirPeerId }

end Contexts

/-- Two ids first differ where one has a character outside the basic plane, and the other one of the last in it. -/
def Crossed (one other : String) : Prop :=
  ∃ c d, DifferAt c d one.toList other.toList ∧ (Outranked c d ∨ Outranked d c)

section Order
variable {one other : String} {c d : Char}

theorem bytewise_eq (text : String) : bytewise text = text.toList.flatMap utf8Units := by
  rw [bytewise, utf8_eq_flatMap, List.map_flatMap]
  rfl

theorem bytewise_lt_iff : bytewise one < bytewise other ↔ codeLt utf8Units one.toList other.toList := by
  rw [bytewise_eq, bytewise_eq, codeLt]

/-- Bytes and code units order two texts alike, unless they are crossed. -/
theorem same_order_iff (one other : String) :
    (bytewise other < bytewise one ↔ utf16 other < utf16 one) ↔ ¬ Crossed one other := by
  rw [bytewise_lt_iff]
  change (_ ↔ codeLt utf16Units other.toList one.toList) ↔ _
  rcases differ_cases one.toList other.toList with same | ⟨e, rest, longer⟩ | ⟨e, rest, longer⟩ | ⟨c, d, differ⟩
  · rw [same]
    refine iff_of_true (iff_of_false (lt_irrefl _) (lt_irrefl _)) ?_
    rintro ⟨c, d, differ, -⟩
    have within : DifferAt c d other.toList (other.toList ++ []) := by
      rw [same] at differ
      rwa [List.append_nil]
    exact within.not_initial
  · have byBytes := utf8Units_coded.lt_of_prefix one.toList e rest
    have byUnits := utf16Units_coded.lt_of_prefix one.toList e rest
    rw [longer]
    refine iff_of_true (iff_of_false (lt_asymm byBytes) (lt_asymm byUnits)) ?_
    rintro ⟨c, d, differ, -⟩
    exact (longer ▸ differ).not_initial
  · have byBytes := utf8Units_coded.lt_of_prefix other.toList e rest
    have byUnits := utf16Units_coded.lt_of_prefix other.toList e rest
    rw [longer]
    refine iff_of_true (iff_of_true byBytes byUnits) ?_
    rintro ⟨c, d, differ, -⟩
    exact (longer ▸ differ.symm).not_initial
  · rw [utf8Units_coded.lt_of_differ differ.symm, utf16Units_coded.lt_of_differ differ.symm]
    have place : Crossed one other ↔ Outranked c d ∨ Outranked d c := by
      constructor
      · rintro ⟨e, f, elsewhere, crossed⟩
        obtain ⟨rfl, rfl⟩ := elsewhere.unique differ
        exact crossed
      · exact fun crossed => ⟨c, d, differ, crossed⟩
    rw [place]
    unfold Outranked
    omega

end Order

section Exchange
variable {one other : String} {code : String → List Nat}

theorem sortBy_exchange (injective : Function.Injective code) (one other : String) :
    sortBy code [one, other] = sortBy code [other, one] := by
  rw [sortBy_pair, sortBy_pair]
  rcases lt_trichotomy (code one) (code other) with less | same | more
  · rw [if_neg (lt_asymm less), if_pos less]
  · rw [injective same]
  · rw [if_pos more, if_neg (lt_asymm more)]

theorem bytewise_injective : Function.Injective bytewise := by
  intro one other same
  exact utf8_injective (List.map_injective_iff.mpr (fun _ _ => UInt8.toNat_inj.mp) same)

theorem Elixir.pairwiseInfo_exchange (one other : String) : Elixir.pairwiseInfo one other = Elixir.pairwiseInfo other one := by
  rw [Elixir.pairwiseInfo, Elixir.pairwiseInfo, sortBy_exchange bytewise_injective]

theorem Browser.pairwiseInfo_exchange (one other : String) : Browser.pairwiseInfo one other = Browser.pairwiseInfo other one := by
  rw [Browser.pairwiseInfo, Browser.pairwiseInfo, sortBy_exchange utf16_injective]

/-- Ids that differ at some place are joined to different texts by their two orders. -/
theorem joined_apart {c d : Char} (differ : DifferAt c d one.toList other.toList) :
    utf8 (labelPairwise ++ "|" ++ "|".intercalate [one, other]) ≠ utf8 (labelPairwise ++ "|" ++ "|".intercalate [other, one]) := by
  intro same
  have texts := congrArg String.toList ((String.append_right_inj _).mp (utf8_injective same))
  obtain ⟨apart, front, xs, ys, first, second⟩ := differ
  rw [String.toList_intercalate, String.toList_intercalate] at texts
  simp only [List.map_cons, List.map_nil, first, second, List.intercalate, List.intersperse, List.flatten_cons,
    List.append_assoc, List.cons_append] at texts
  exact apart (List.cons.inj (List.append_cancel_left texts)).1

/-- The two programs join a pair of ids in one order exactly where they order them alike. -/
theorem pairwiseInfo_agree_iff (one other : String) :
    Elixir.pairwiseInfo one other = Browser.pairwiseInfo one other ↔ ¬ Crossed one other := by
  rw [← same_order_iff, Elixir.pairwiseInfo, Browser.pairwiseInfo, sortBy_pair, sortBy_pair]
  constructor
  · intro same
    by_contra unlike
    have crossed : Crossed one other := by rwa [same_order_iff, not_not] at unlike
    obtain ⟨c, d, differ, -⟩ := crossed
    by_cases swapped : bytewise other < bytewise one
    · have kept : ¬ utf16 other < utf16 one := fun swapped' => unlike (iff_of_true swapped swapped')
      rw [if_pos swapped, if_neg kept] at same
      exact joined_apart differ same.symm
    · have swapped' : utf16 other < utf16 one := by
        by_contra kept
        exact unlike (iff_of_false swapped kept)
      rw [if_neg swapped, if_pos swapped'] at same
      exact joined_apart differ same
  · intro alike
    by_cases swapped : bytewise other < bytewise one
    · rw [if_pos swapped, if_pos (alike.mp swapped)]
      rfl
    · rw [if_neg swapped, if_neg (fun swapped' => swapped (alike.mpr swapped'))]
      rfl

end Exchange

section Agreement
variable (sha256 : List UInt8 → List UInt8)

/-- For one shared secret both programs derive one key, whichever peer derives it, exactly where the ids are not crossed. -/
theorem pairwise_context_agrees_iff (roomId : String) (epoch : Nat) (one other : String) :
    (Elixir.pairwiseContext sha256 roomId epoch one other = Browser.pairwiseContext sha256 roomId epoch one other ∧
      Elixir.pairwiseContext sha256 roomId epoch one other = Elixir.pairwiseContext sha256 roomId epoch other one ∧
      Browser.pairwiseContext sha256 roomId epoch one other = Browser.pairwiseContext sha256 roomId epoch other one) ↔
      ¬ Crossed one other := by
  unfold Elixir.pairwiseContext Browser.pairwiseContext
  simp only [Browser.pairwiseSaltText_eq, HkdfContext.mk.injEq, true_and, pairwiseInfo_agree_iff]
  have exchanged := And.intro (Elixir.pairwiseInfo_exchange one other) (Browser.pairwiseInfo_exchange one other)
  exact and_iff_left exchanged

/-- A fullwidth tilde comes before an emoji by bytes, and after it by code units. -/
theorem pairwise_context_disagrees : validPeerId "～" = .ok () ∧ validPeerId "😀" = .ok () ∧
    Elixir.pairwiseInfo "～" "😀" ≠ Browser.pairwiseInfo "～" "😀" := by
  refine ⟨by decide, by decide, ?_⟩
  rw [Elixir.pairwiseInfo, Browser.pairwiseInfo, sortBy_pair, sortBy_pair]
  decide +kernel

end Agreement

end Burble.E2EE
