import OptionResearch.ModularStrides
import OptionResearch.ParameterEquality

/-!
# Low-discrepancy sampling

`ParameterSpaceGenerator.generate_low_discrepancy_placeholder` of `parameter_space.py`: a walk
around the exhaustive candidates in steps of one length. The steps of a small sample stay within one
turn, a large sample is a walk in steps of one, so that neither comes back to a candidate too early.
-/

namespace OptionResearch.ParameterSpaceGenerator

open ModularStrides

/-- `f"ld-{pick + 1:07d}"`. -/
def lowDiscrepancyId (pick : Nat) : String := "ld-" ++ Date.digits 7 (pick + 1)

/-- The loop over the picks that are left, at a position of the exhaustive candidates. -/
def pickFrom (exhaustive : List Candidate) (step : Nat) :
    Nat → Nat → Nat → Except Exc (List Candidate)
  | 0, _, _ => .ok []
  | left + 1, pick, idx =>
    match exhaustive[idx]? with
    | none => .error ⟨.other "IndexError", "list index out of range"⟩
    | some candidate => do
      let selected ← pickFrom exhaustive step left (pick + 1) ((idx + step) % exhaustive.length)
      return ⟨lowDiscrepancyId pick, candidate.parameters⟩ :: selected

/-- `max(1, len(exhaustive) // max(1, count))`. -/
def strideOf (length count : Nat) : Nat := max 1 (length / max 1 count)

def generateLowDiscrepancyPlaceholder (text : PyText) (generator : ParameterSpaceGenerator)
    (space : ParameterSpace) (count seed : Int) : Except Exc (List Candidate) :=
  if count ≤ 0 then .ok []
  else do
    let exhaustive ← generateExhaustive text generator space
    if exhaustive.isEmpty then return []
    pickFrom exhaustive (strideOf exhaustive.length count.toNat) count.toNat 0
      (seed % exhaustive.length).toNat

variable {text : PyText} {generator : ParameterSpaceGenerator} {space : ParameterSpace}
  {exhaustive : List Candidate}

/-- The walk picks the candidates at its positions. -/
theorem exists_pickFrom {step left pick idx : Nat} (hidx : idx < exhaustive.length) :
    ∃ selected, pickFrom exhaustive step left pick idx = .ok selected ∧
      selected.map (fun candidate => some candidate.parameters) =
        (strides exhaustive.length step idx left).map fun position =>
          (exhaustive[position]?).map (·.parameters) := by
  induction left generalizing pick idx with
  | zero => exact ⟨[], rfl, rfl⟩
  | succ left ih =>
    have hpos : 0 < exhaustive.length := Nat.zero_lt_of_lt hidx
    have hfound : exhaustive[idx]? = some exhaustive[idx] := List.getElem?_eq_getElem hidx
    have hnext : (idx + step) % exhaustive.length < exhaustive.length := Nat.mod_lt _ hpos
    obtain ⟨selected, hselected, hparameters⟩ := @ih (pick + 1) _ hnext
    refine ⟨⟨lowDiscrepancyId pick, exhaustive[idx].parameters⟩ :: selected, ?_, ?_⟩
    · rw [pickFrom, hfound]
      dsimp only
      rw [hselected]
      rfl
    · rw [strides_succ, strideAt_zero hidx, List.map_cons, List.map_cons, hparameters, hfound]
      rfl

/-- The steps of a sample within the candidates stay within one turn. -/
theorem mul_strideOf_le {length count : Nat} (hcount : 0 < count) (h : count ≤ length) :
    count * strideOf length count ≤ length := by
  have hquotient : 1 ≤ length / count := (Nat.one_le_div_iff hcount).mpr h
  have hmax : max 1 count = count := max_eq_right hcount
  rw [strideOf, hmax, max_eq_right hquotient]
  exact Nat.mul_div_le length count

/-- A sample as large as the candidates goes on in steps of one. -/
theorem strideOf_eq_one {length count : Nat} (hcount : 0 < count) (h : length ≤ count) :
    strideOf length count = 1 := by
  have hmax : max 1 count = count := max_eq_right hcount
  rw [strideOf, hmax]
  apply max_eq_left
  calc length / count ≤ count / count := Nat.div_le_div_right h
    _ = 1 := Nat.div_self hcount

theorem strideOf_pos {length count : Nat} : 0 < strideOf length count := le_max_left 1 _

section Sample

variable {selected : List Candidate} {positions : List Nat}
  (hselected : selected.map (fun candidate => some candidate.parameters) =
    positions.map fun position => (exhaustive[position]?).map (·.parameters))
include hselected

theorem mem_of_positions {pick : Candidate} (hpick : pick ∈ selected) :
    ∃ candidate ∈ exhaustive, pick.parameters = candidate.parameters := by
  have hmem : some pick.parameters ∈ selected.map fun candidate => some candidate.parameters :=
    List.mem_map_of_mem hpick
  rw [hselected] at hmem
  obtain ⟨position, -, hposition⟩ := List.mem_map.mp hmem
  obtain ⟨candidate, hfound, hparameters⟩ := Option.map_eq_some_iff.mp hposition
  exact ⟨candidate, List.mem_of_getElem? hfound, hparameters.symm⟩

/-- Different positions of different candidates pick different parameters. -/
theorem pairwise_of_positions (hpositions : positions.Nodup)
    (hdistinct : exhaustive.Pairwise fun a b => ¬ SameParameters a.parameters b.parameters) :
    selected.Pairwise fun a b => ¬ SameParameters a.parameters b.parameters := by
  have hdiffer : ∀ (i j : Nat), i ≠ j → ∀ a b : Candidate,
      exhaustive[i]? = some a → exhaustive[j]? = some b →
      ¬ SameParameters a.parameters b.parameters := by
    intro i j hij a b ha hb
    obtain ⟨hi, rfl⟩ := List.getElem?_eq_some_iff.mp ha
    obtain ⟨hj, rfl⟩ := List.getElem?_eq_some_iff.mp hb
    rcases Nat.lt_or_gt_of_ne hij with hlt | hgt
    · exact List.pairwise_iff_getElem.mp hdistinct i j hi hj hlt
    · exact fun hsame => List.pairwise_iff_getElem.mp hdistinct j i hj hi hgt hsame.symm
  have hoptions : (selected.map fun candidate => some candidate.parameters).Pairwise
      fun o o' => ∀ a b, o = some a → o' = some b → ¬ SameParameters a b := by
    rw [hselected, List.pairwise_map]
    refine hpositions.imp fun {i j} hij a b ha hb => ?_
    obtain ⟨candidate, hcandidate, rfl⟩ := Option.map_eq_some_iff.mp ha
    obtain ⟨candidate', hcandidate', rfl⟩ := Option.map_eq_some_iff.mp hb
    exact hdiffer i j hij _ _ hcandidate hcandidate'
  exact (List.pairwise_map.mp hoptions).imp fun h => h _ _ rfl rfl

/-- Positions that leave none out pick every candidate. -/
theorem exists_of_positions (hpositions : ∀ position < exhaustive.length, position ∈ positions)
    {candidate : Candidate} (hmem : candidate ∈ exhaustive) :
    ∃ pick ∈ selected, pick.parameters = candidate.parameters := by
  obtain ⟨position, hposition, rfl⟩ := List.getElem_of_mem hmem
  have hoption : some exhaustive[position].parameters ∈
      positions.map fun position => (exhaustive[position]?).map (·.parameters) := by
    refine List.mem_map.mpr ⟨position, hpositions position hposition, ?_⟩
    rw [List.getElem?_eq_getElem hposition]
    rfl
  rw [← hselected] at hoption
  obtain ⟨pick, hpick, hparameters⟩ := List.mem_map.mp hoption
  exact ⟨pick, hpick, Option.some.inj hparameters⟩

end Sample

/-- A sample is drawn from the candidates, without a repetition while it is no larger than they are,
and with all of them once it is as large. -/
theorem lowDiscrepancy_covers {candidates : List Candidate} {count seed : Int}
    (hgenerate : generateExhaustive text generator space = .ok candidates)
    (hnonempty : candidates ≠ [])
    (hdistinct : candidates.Pairwise fun a b => ¬ SameParameters a.parameters b.parameters)
    (hcount : 1 ≤ count) :
    ∃ selected,
      generateLowDiscrepancyPlaceholder text generator space count seed = .ok selected ∧
      (selected.length : Int) = count ∧
      (∀ pick ∈ selected, ∃ candidate ∈ candidates, pick.parameters = candidate.parameters) ∧
      (count ≤ candidates.length →
        selected.Pairwise fun a b => ¬ SameParameters a.parameters b.parameters) ∧
      ((candidates.length : Int) ≤ count →
        ∀ candidate ∈ candidates, ∃ pick ∈ selected, pick.parameters = candidate.parameters) := by
  have hlength : 0 < candidates.length := List.length_pos_iff.mpr hnonempty
  obtain ⟨n, rfl⟩ := Int.eq_ofNat_of_zero_le (zero_le_one.trans hcount)
  have hn : 0 < n := by omega
  have hidx : (seed % candidates.length).toNat < candidates.length := by
    have hlt := Int.emod_lt_of_pos seed (Int.natCast_pos.mpr hlength)
    have hnonneg := Int.emod_nonneg seed (Int.natCast_ne_zero.mpr hlength.ne')
    omega
  obtain ⟨selected, hselected, hpositions⟩ :=
    @exists_pickFrom candidates (strideOf candidates.length n) n 0 _ hidx
  refine ⟨selected, ?_, ?_, fun pick hpick => mem_of_positions hpositions hpick, ?_, ?_⟩
  · rw [generateLowDiscrepancyPlaceholder, if_neg (by omega), hgenerate]
    dsimp only [bind, Except.bind]
    rw [if_neg (by simpa using hnonempty), Int.toNat_natCast]
    exact hselected
  · have hlen := congrArg List.length hpositions
    rw [List.length_map, List.length_map, strides, List.length_map, List.length_range] at hlen
    exact congrArg Nat.cast hlen
  · intro hle
    have hturn := mul_strideOf_le hn (Int.ofNat_le.mp hle)
    exact pairwise_of_positions hpositions (nodup_strides strideOf_pos hturn) hdistinct
  · intro hle candidate hmem
    have hone := strideOf_eq_one hn (Int.ofNat_le.mp hle)
    rw [hone] at hpositions
    exact exists_of_positions hpositions (fun _ => mem_strides_one (Int.ofNat_le.mp hle)) hmem

theorem lowDiscrepancy_covers_flag :
    ∃ selected,
      generateLowDiscrepancyPlaceholder plainText {} { parameters := [.boolean "flag"] } 2 3 =
        .ok selected ∧
      ∀ value, ∃ pick ∈ selected, pick.parameters.get? "flag" = some (.bool value) := by
  obtain ⟨candidates, hgenerate, hflags⟩ : ∃ candidates,
      generateExhaustive plainText {} { parameters := [.boolean "flag"] } = .ok candidates ∧
        candidates.map (fun candidate => candidate.parameters.get? "flag") =
          [some (.bool false), some (.bool true)] := ⟨_, rfl, rfl⟩
  have hlength : candidates.length = 2 := by
    rw [← List.length_map (fun candidate : Candidate => candidate.parameters.get? "flag"), hflags]
    rfl
  have hdistinct :
      candidates.Pairwise fun a b => ¬ SameParameters a.parameters b.parameters := by
    have hpairwise : (candidates.map fun candidate => candidate.parameters.get? "flag").Pairwise
        fun o o' => o.map ParameterValue.canonical ≠ o'.map ParameterValue.canonical := by
      rw [hflags]
      decide +kernel
    exact (List.pairwise_map.mp hpairwise).imp fun hne hsame => hne (hsame "flag")
  obtain ⟨selected, hselected, -, -, -, hall⟩ := @lowDiscrepancy_covers _ _ _ _ 2 3
    hgenerate (List.ne_nil_of_length_pos (by omega)) hdistinct (by decide)
  refine ⟨selected, hselected, fun value => ?_⟩
  have hmem : some (ParameterValue.bool value) ∈
      candidates.map fun candidate => candidate.parameters.get? "flag" := by
    rw [hflags]
    cases value <;> simp
  obtain ⟨candidate, hcandidate, hvalue⟩ := List.mem_map.mp hmem
  obtain ⟨pick, hpick, hparameters⟩ := hall (by omega) candidate hcandidate
  exact ⟨pick, hpick, by rw [hparameters, hvalue]⟩

end OptionResearch.ParameterSpaceGenerator
