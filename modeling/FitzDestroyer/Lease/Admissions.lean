import FitzDestroyer.Js.Collections
import FitzDestroyer.Js.Division
import FitzDestroyer.Js.Rounding
import FitzDestroyer.Workload.Log
import Mathlib.Algebra.Order.BigOperators.Group.Finset

/-!
# Admissions of a contended lease

In `lease-contention` (`src/orchestration/lease-contention.ts`) every contender enters a lease a
number of times, and logs its admissions.

* `leaseAdmissions`, `assertLeaseAdmissions` : the model;
* `sort_eq_range_iff` : the sequences `0, 1, ..` in any order are sorted;
* `assertLeaseAdmissions_exact` : the admissions that are accepted.
-/

namespace FitzDestroyer

namespace Lease

open Js Check Workload

/-! ### The model -/

structure LeaseAdmission where
  participant : String
  sequence : Number
  fencingToken : ℤ

/-- `BigInt(text)`. -/
def bigInt? (text : List Char) : Option ℤ :=
  let cs := trim text
  if cs = [] then some 0
  else
    match literalBase? cs with
    | some base => (digitsValue? base (cs.drop 2)).map Rat.num
    | none =>
      let negative := cs.head? = some '-'
      let digits := if negative ∨ cs.head? = some '+' then cs.tail else cs
      if digits ≠ [] ∧ digits.all Char.isDigit then
        let value : ℤ := Nat.ofDigitChars 10 digits 0
        some (if negative then -value else value)
      else none

def leaseAdmission (record : Record) : Except Thrown LeaseAdmission :=
  match (field record "participant").bind Json.text?,
    (field record "fencingToken").bind Json.text? with
  | some participant, some fencingToken => do
    let sequence ← numericField record "sequence"
    match bigInt? fencingToken.toList with
    | some token => return ⟨participant, sequence, token⟩
    | none => throw (.error "SyntaxError" s!"Cannot convert {fencingToken} to a BigInt" none)
  | _, _ => .error (newError "Lease admission omitted participant or fencing token")

def leaseAdmissions (logs : List Log) : Except Thrown (List LeaseAdmission) :=
  ((logs.flatMap parseJsonRecords).filter fun record =>
    IsEvent record "lease_entered").mapM leaseAdmission

/-- The sequences of a participant, in the order of the records. -/
def sequencesOf (admissions : List LeaseAdmission) (participant : String) : List Number :=
  (admissions.filter fun admission => admission.participant = participant).map
    LeaseAdmission.sequence

/-- `sequences.sort((left, right) => left - right)`. -/
def sortSequences (sequences : List Number) : List Number :=
  sequences.mergeSort fun left right => !(left.sub right).greater (0 : ℕ)

/-- `0, 1, ..`, up to `expected / participants`. -/
def expectedSequences (expected participants : ℕ) : List Number :=
  (List.range (expected / participants)).map fun n : ℕ => (n : Number)

def assertLeaseAdmissions (admissions : List LeaseAdmission) (expected participants : ℕ) :
    Except Thrown Unit := do
  failIf (admissions.length ≠ expected)
    (newError s!"Lease admitted {admissions.length}/{expected} callbacks")
  let tokens := admissions.map fun admission => toString admission.fencingToken
  failIf (tokens.eraseDups.length ≠ tokens.length)
    (newError "Lease reused a fencing token across distinct ownership admissions")
  let participantSet := (admissions.map LeaseAdmission.participant).eraseDups
  failIf (participantSet.length ≠ participants)
    (newError s!"Lease admitted {participantSet.length}/{participants} contenders")
  forEach participantSet fun participant =>
    failIf ((sortSequences (sequencesOf admissions participant)).zipIdx.any fun p =>
        some p.1 ≠ (expectedSequences expected participants)[p.2]?)
      (newError s!"Lease contender {participant} did not complete every sequence exactly once")

/-! ### What is accepted -/

/-- **The admissions are exact**: no token is used twice, and each of the participants has each of
its sequences once. -/
structure Exact (admissions : List LeaseAdmission) (expected participants : ℕ) : Prop where
  tokens : (admissions.map LeaseAdmission.fencingToken).Nodup
  contenders : (admissions.map LeaseAdmission.participant).toFinset.card = participants
  sequences : ∀ admission ∈ admissions, (sequencesOf admissions admission.participant).Perm
    ((List.range (expected / participants)).map fun n : ℕ => (n : Number))

/-- The sequences that are read from logs are natural numbers. -/
theorem sequence_of_leaseAdmissions {logs : List Log} {admissions : List LeaseAdmission}
    (h : leaseAdmissions logs = .ok admissions) :
    ∀ admission ∈ admissions, ∃ n : ℕ, admission.sequence = n := by
  intro admission hmem
  obtain ⟨record, -, hrecord⟩ := exists_of_mapM h hmem
  unfold leaseAdmission at hrecord
  split at hrecord
  · simp only [bind_eq, bind_eq_ok] at hrecord
    obtain ⟨n, -, hrecord⟩ := hrecord
    split at hrecord
    · exact ⟨n, congrArg LeaseAdmission.sequence (Except.ok.inj hrecord).symm⟩
    · cases hrecord
  · cases hrecord

/-! ### Tokens -/

/-- A token is told by its text. -/
theorem toString_int_injective {m n : ℤ} (h : toString m = toString n) : m = n := by
  have hsign : ∀ {a b : ℕ}, toString a ≠ "-" ++ toString b := fun {a b} h => by
    have hmem : '-' ∈ (toString a).toList := by
      rw [h, String.toList_append]
      exact List.mem_append_left _ (by decide)
    rw [Nat.toString_eq_ofList_toDigits, String.toList_ofList] at hmem
    exact absurd (isDigit_of_mem_toDigits hmem) (by decide)
  cases m with
  | ofNat m =>
    cases n with
    | ofNat n => exact congrArg _ (toString_injective h)
    | negSucc n => exact absurd h hsign
  | negSucc m =>
    cases n with
    | ofNat n => exact absurd h.symm hsign
    | negSucc n =>
      exact congrArg _
        (Nat.succ.inj (toString_injective (String.append_right_inj "-" |>.mp h)))

/-! ### Sequences -/

/-- The order of natural numbers. -/
theorem greater_sub_natCast (m n : ℕ) :
    ((m : Number).sub (n : Number)).greater (0 : ℕ) = decide (n < m) := by
  have hsub : (m : Number).sub (n : Number) = .round ((m : ℚ) - n) := by
    rw [sub_eq_add_neg]
    rfl
  rw [hsub]
  by_cases hlt : n < m
  · -- The difference is at least one, and does not round to less.
    have hone : (1 : ℚ) ≤ (m : ℚ) - n := by
      rw [le_sub_iff_add_le']
      exact_mod_cast hlt
    have hmono := Number.round_mono zero_le_one hone
    have hround : Number.round 1 = ((1 : ℕ) : Number) := by
      exact_mod_cast Number.round_natCast (n := 1) (by decide)
    rw [hround] at hmono
    rw [decide_eq_true hlt, Number.greater, decide_eq_true_eq]
    refine ⟨?_, ?_, ?_⟩
    · intro hnan
      rw [hnan] at hmono
      cases hmono
    · exact Number.noConfusion
    · refine Bool.eq_false_iff.mpr fun hle => ?_
      have := Number.lessEq_trans hmono hle
      revert this
      decide
  · have hneg : (m : ℚ) - n ≤ 0 := by
      rw [sub_nonpos]
      exact_mod_cast not_lt.mp hlt
    rw [decide_eq_false hlt, Number.greater, decide_eq_false_iff_not]
    have hle : (Number.round ((m : ℚ) - n)).lessEq (0 : ℕ) = true := by
      rcases hneg.eq_or_lt with heq | hlt
      · rw [heq, Number.round, if_pos rfl]
        decide
      · rw [Number.round, if_neg hlt.ne]
        dsimp only
        rw [if_pos hlt, if_pos hlt]
        split_ifs
        · rfl
        · exact decide_eq_true (neg_nonpos.mpr (roundMagnitude_nonneg (abs_nonneg _)))
    exact fun h => absurd hle (Bool.eq_false_iff.mp h.2.2)

/-- **The sequences** `0, 1, ..` in any order are sorted. -/
theorem sortSequences_eq {sequences : List Number} {n : ℕ}
    (h : sequences.Perm ((List.range n).map fun m : ℕ => (m : Number))) :
    sortSequences sequences = (List.range n).map fun m : ℕ => (m : Number) := by
  obtain ⟨back, hback⟩ := Number.natCast_injective.hasLeftInverse
  have hsequences : (sequences.map back).map (fun m : ℕ => (m : Number)) = sequences := by
    rw [List.map_map]
    refine (List.map_congr_left fun x hx => ?_).trans (List.map_id sequences)
    obtain ⟨m, -, rfl⟩ := List.mem_map.mp (h.subset hx)
    exact congrArg (fun m : ℕ => (m : Number)) (hback m)
  have hperm : (sequences.map back).Perm (List.range n) := by
    rw [← List.map_perm_map_iff Number.natCast_injective, hsequences]
    exact h
  have hsorted : (sequences.map back).mergeSort (fun a b => !decide (b < a)) = List.range n := by
    have hmerge : ((sequences.map back).mergeSort fun a b => !decide (b < a)).Pairwise
        fun a b => (!decide (b < a)) = true :=
      List.pairwise_mergeSort (by simp; omega) (by simp; omega) _
    have hrange : (List.range n).Pairwise fun a b => (!decide (b < a)) = true :=
      List.pairwise_lt_range.imp fun hlt => by simpa using hlt.le
    exact ((List.mergeSort_perm _ _).trans hperm).eq_of_pairwise (by simp; omega) hmerge hrange
  rw [sortSequences, ← hsequences, ← List.map_mergeSort (r := fun a b => !decide (b < a)), hsorted]
  intro a _ b _
  rw [greater_sub_natCast]

theorem sequences_pass_iff {sequences expected : List Number} :
    (¬(sequences.zipIdx.any fun p => some p.1 ≠ expected[p.2]?) = true) ↔
      sequences <+: expected := by
  rw [List.prefix_iff_getElem?]
  simp only [List.any_eq_true, not_exists, not_and, decide_eq_true_eq, not_not,
    List.mem_zipIdx_iff_getElem?, Prod.forall]
  constructor
  · exact fun h i hi => (h _ i (List.getElem?_eq_getElem hi)).symm
  · intro h x i hx
    obtain ⟨hi, rfl⟩ := List.getElem?_eq_some_iff.mp hx
    exact (h i hi).symm

theorem assertLeaseAdmissions_eq_ok {admissions : List LeaseAdmission} {expected participants : ℕ} :
    assertLeaseAdmissions admissions expected participants = .ok () ↔
      admissions.length = expected ∧ (admissions.map LeaseAdmission.fencingToken).Nodup ∧
        (admissions.map LeaseAdmission.participant).toFinset.card = participants ∧
        ∀ admission ∈ admissions, sortSequences (sequencesOf admissions admission.participant) <+:
          expectedSequences expected participants := by
  have htokens : (admissions.map fun admission => toString admission.fencingToken).Nodup ↔
      (admissions.map LeaseAdmission.fencingToken).Nodup := by
    rw [← List.nodup_map_iff (f := toString) fun _ _ => toString_int_injective, List.map_map]
    rfl
  simp only [assertLeaseAdmissions, bind_eq, seq_eq_ok, failIf_eq_ok, forEach_eq_ok, not_not,
    length_eraseDups_eq_iff, mem_eraseDups, List.forall_mem_map, htokens, sequences_pass_iff]
  rw [length_eraseDups]

/-- The records of the participants, counted. -/
theorem sum_sequencesOf (admissions : List LeaseAdmission) :
    ∑ participant ∈ (admissions.map LeaseAdmission.participant).toFinset,
      (sequencesOf admissions participant).length = admissions.length := by
  have hcount := Multiset.toFinset_sum_count_eq
    ((admissions.map LeaseAdmission.participant : List String) : Multiset String)
  rw [List.toFinset_coe, Multiset.coe_card, List.length_map] at hcount
  rw [← hcount]
  refine Finset.sum_congr rfl fun participant _ => ?_
  rw [Multiset.coe_count, sequencesOf, List.length_map, ← List.countP_eq_length_filter,
    List.count, List.countP_map]
  rfl

/-- **The verdict is exact.** -/
theorem assertLeaseAdmissions_exact {admissions : List LeaseAdmission} {expected participants : ℕ}
    (h : participants ∣ expected) :
    assertLeaseAdmissions admissions expected participants = .ok () ↔
      Exact admissions expected participants := by
  rw [assertLeaseAdmissions_eq_ok]
  have hsum := sum_sequencesOf admissions
  have hmul : participants * (expected / participants) = expected := Nat.mul_div_cancel' h
  have hlength : (expectedSequences expected participants).length = expected / participants := by
    rw [expectedSequences, List.length_map, List.length_range]
  have hsort : ∀ participant, (sortSequences (sequencesOf admissions participant)).length =
      (sequencesOf admissions participant).length := fun participant =>
    (List.mergeSort_perm _ _).length_eq
  constructor
  · rintro ⟨htotal, htokens, hcard, hsorted⟩
    -- No participant has too many sequences, so none has too few.
    have hle : ∀ participant ∈ (admissions.map LeaseAdmission.participant).toFinset,
        (sequencesOf admissions participant).length ≤ expected / participants := by
      intro participant hmem
      obtain ⟨admission, hadmission, rfl⟩ := List.mem_map.mp (List.mem_toFinset.mp hmem)
      rw [← hsort, ← hlength]
      exact (hsorted admission hadmission).length_le
    have hconst : ∑ participant ∈ (admissions.map LeaseAdmission.participant).toFinset,
        (sequencesOf admissions participant).length =
          ∑ _participant ∈ (admissions.map LeaseAdmission.participant).toFinset,
            expected / participants := by
      rw [hsum, Finset.sum_const_nat fun _ _ => rfl, hcard, htotal, hmul]
    have hall := (Finset.sum_eq_sum_iff_of_le hle).mp hconst
    refine ⟨htokens, hcard, fun admission hadmission => ?_⟩
    have hfull := (hsorted admission hadmission).eq_of_length
      ((hsort _).trans ((hall _ (List.mem_toFinset.mpr (List.mem_map_of_mem hadmission))).trans
        hlength.symm))
    exact (List.mergeSort_perm _ _).symm.trans (List.Perm.of_eq hfull)
  · intro hexact
    refine ⟨?_, hexact.tokens, hexact.contenders, fun admission hadmission => ?_⟩
    · have heach : ∀ participant ∈ (admissions.map LeaseAdmission.participant).toFinset,
          (sequencesOf admissions participant).length = expected / participants := by
        intro participant hmem
        obtain ⟨admission, hadmission, rfl⟩ := List.mem_map.mp (List.mem_toFinset.mp hmem)
        rw [(hexact.sequences admission hadmission).length_eq, List.length_map, List.length_range]
      rw [← hsum, Finset.sum_const_nat heach, hexact.contenders, hmul]
    · rw [sortSequences_eq (hexact.sequences admission hadmission)]
      exact List.prefix_rfl

/-- Two participants, whose admissions interleave. -/
theorem assertLeaseAdmissions_interleaved :
    assertLeaseAdmissions [⟨"a", (0 : ℕ), 1⟩, ⟨"b", (0 : ℕ), 2⟩, ⟨"b", (1 : ℕ), 3⟩,
      ⟨"a", (1 : ℕ), 5⟩] 4 2 = .ok () := by
  refine (assertLeaseAdmissions_exact (by decide)).mpr ⟨by decide, by decide, ?_⟩
  decide

end Lease

end FitzDestroyer
