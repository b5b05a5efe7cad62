import TalosWorkflow.Handlers.Verdicts
import TalosWorkflow.Library.Tally
import TalosWorkflow.Signing.Rendering
import TalosWorkflow.Truncation

/-!
# Majority votes

The candidates of an ensemble vote with the text of a value, of which only the
first bytes count. The vote of the majority is selected from the tally.
-/

namespace TalosWorkflow

variable {H : Host}

def voteValue (candidate : Json) : Json :=
  ((candidate.get "result").or (candidate.get "output")).getD candidate

def fine (candidates : List Json) : List Json :=
  candidates.filter fun candidate => !isErrorOutput candidate

theorem mem_fine {candidates : List Json} {candidate : Json} :
    candidate ∈ fine candidates ↔ candidate ∈ candidates ∧ isErrorOutput candidate = false := by
  rw [fine, List.mem_filter, Bool.not_eq_true']

def SharesVote (a b : Json) : Prop := voteKey a = voteKey b

instance (a b : Json) : Decidable (SharesVote a b) := inferInstanceAs (Decidable (_ = _))

def votesFor (candidates : List Json) (candidate : Json) : Nat :=
  (fine candidates).countP fun other => SharesVote other candidate

def Leads (candidates : List Json) (candidate : Json) : Prop :=
  ∀ other ∈ fine candidates, votesFor candidates other ≤ votesFor candidates candidate

instance (candidates : List Json) (candidate : Json) : Decidable (Leads candidates candidate) := by
  unfold Leads
  infer_instance

section Keys

/-- The cap is at the end of a character if it cuts the vote at all. -/
def CutsCleanly (candidate : Json) : Prop :=
  maxVoteKeyBytes < (voteValue candidate).byteLength → ∃ kept rest,
    (voteValue candidate).render = kept ++ rest ∧
      (kept.map Char.utf8Size).sum = maxVoteKeyBytes

theorem byteLength_eq_length (j : Json) : j.byteLength = (utf8 j.text).length := rfl

theorem voteKey_of_cut {candidate : Json} {kept rest : List Char}
    (hLong : maxVoteKeyBytes < (voteValue candidate).byteLength)
    (hText : (voteValue candidate).render = kept ++ rest)
    (hSize : (kept.map Char.utf8Size).sum = maxVoteKeyBytes) :
    voteKey candidate = some (String.ofList kept) := by
  have hKept := bytePrefix_append kept rest
  rw [hSize, ← hText] at hKept
  refine (if_pos hLong).trans ?_
  rw [← voteValue, Json.text, String.toList_ofList, hKept]
  rfl

theorem voteKey_eq_none {candidate : Json}
    (hLong : maxVoteKeyBytes < (voteValue candidate).byteLength)
    (hCut : bytePrefix maxVoteKeyBytes (voteValue candidate).text.toList = none) :
    voteKey candidate = none := by
  refine (if_pos hLong).trans ?_
  rw [← voteValue, hCut]
  rfl

/-- A vote that is cut cleanly has the first bytes of its text for a key. -/
theorem voteKey_of_cutsCleanly {candidate : Json} (h : CutsCleanly candidate) :
    ∃ key, voteKey candidate = some key ∧
      utf8 key = (utf8 (voteValue candidate).text).take maxVoteKeyBytes := by
  by_cases hLong : maxVoteKeyBytes < (voteValue candidate).byteLength
  · obtain ⟨kept, rest, hText, hSize⟩ := h hLong
    refine ⟨String.ofList kept, voteKey_of_cut hLong hText hSize, ?_⟩
    have hLength := length_utf8_ofList kept
    rw [hSize, utf8_ofList] at hLength
    rw [Json.text, hText, utf8_ofList, utf8_ofList (kept ++ rest), List.flatMap_append, ← hLength,
      List.take_left]
  · refine ⟨(voteValue candidate).text, if_neg hLong, ?_⟩
    rw [List.take_of_length_le]
    rw [← byteLength_eq_length]
    omega

theorem cutsCleanly_of_voteKey {candidate : Json} {key : String}
    (h : voteKey candidate = some key) : CutsCleanly candidate := by
  intro hLong
  have hCut : (bytePrefix maxVoteKeyBytes (voteValue candidate).render).map String.ofList =
      some key := by
    rw [← h]
    refine Eq.trans ?_ (if_pos hLong).symm
    rw [← voteValue, Json.text, String.toList_ofList]
  obtain ⟨kept, hKept, -⟩ := Option.map_eq_some_iff.1 hCut
  obtain ⟨rest, hText, hBound, hFull⟩ := bytePrefix_eq_some hKept
  refine ⟨kept, rest, hText, hFull ?_⟩
  rintro rfl
  rw [byteLength_eq_length, Json.text, hText, length_utf8_ofList, List.append_nil] at hLong
  omega

theorem sharesVote_iff {a b : Json} (ha : CutsCleanly a) (hb : CutsCleanly b) :
    SharesVote a b ↔ (utf8 (voteValue a).text).take maxVoteKeyBytes =
      (utf8 (voteValue b).text).take maxVoteKeyBytes := by
  obtain ⟨key, hKey, hBytes⟩ := voteKey_of_cutsCleanly ha
  obtain ⟨key', hKey', hBytes'⟩ := voteKey_of_cutsCleanly hb
  rw [SharesVote, hKey, hKey', ← hBytes, ← hBytes', Option.some.injEq]
  exact utf8_injective.eq_iff.symm

/-- Votes that are not capped are shared just when the values are the same. -/
theorem sharesVote_iff_of_short {a b : Json} (ha : (voteValue a).byteLength ≤ maxVoteKeyBytes)
    (hb : (voteValue b).byteLength ≤ maxVoteKeyBytes) :
    SharesVote a b ↔ voteValue a = voteValue b := by
  rw [sharesVote_iff (fun hLong => by omega) (fun hLong => by omega),
    List.take_of_length_le (by rwa [← byteLength_eq_length]),
    List.take_of_length_le (by rwa [← byteLength_eq_length]), utf8_injective.eq_iff,
    Json.text_injective.eq_iff]

end Keys

section Counts

/-- The key that a vote is counted under, when its candidate is cut cleanly. -/
def countedKey (candidate : Json) : String := (voteKey candidate).getD ""

theorem voteKey_eq_countedKey {candidate : Json} (h : CutsCleanly candidate) :
    voteKey candidate = some (countedKey candidate) := by
  obtain ⟨key, hKey, -⟩ := voteKey_of_cutsCleanly h
  rw [countedKey, hKey, Option.getD_some]

theorem countedKey_eq_iff {a b : Json} (ha : CutsCleanly a) (hb : CutsCleanly b) :
    countedKey a = countedKey b ↔ SharesVote a b := by
  rw [SharesVote, voteKey_eq_countedKey ha, voteKey_eq_countedKey hb, Option.some.injEq]

theorem castVote_eq_cast : castVote = Tally.cast := rfl

theorem maxVote_eq_lastMax : maxVote = Tally.lastMax := by
  funext votes
  rw [maxVote, Tally.lastMax]
  congr 1
  funext best vote
  cases best <;> rfl

theorem fine_cons_of_error {candidate : Json} (rest : List Json)
    (h : isErrorOutput candidate = true) : fine (candidate :: rest) = fine rest := by
  rw [fine, List.filter_cons_of_neg (by rw [h]; decide), ← fine]

theorem fine_cons_of_fine {candidate : Json} (rest : List Json)
    (h : ¬ isErrorOutput candidate = true) :
    fine (candidate :: rest) = candidate :: fine rest := by
  rw [Bool.not_eq_true] at h
  rw [fine, List.filter_cons_of_pos (by rw [h]; rfl), ← fine]

theorem countVotes_tallied {candidates seen : List Json} {votes : List (String × Nat × Json)}
    (hCuts : ∀ candidate ∈ fine candidates, CutsCleanly candidate)
    (hVotes : Tally.Tallied countedKey seen votes) :
    ∃ counted, countVotes candidates votes = some counted ∧
      Tally.Tallied countedKey (seen ++ fine candidates) counted := by
  induction candidates generalizing seen votes with
  | nil =>
      refine ⟨votes, rfl, ?_⟩
      rwa [fine, List.filter_nil, List.append_nil]
  | cons candidate rest ih =>
      rw [countVotes]
      split
      · rename_i hError
        rw [fine_cons_of_error rest hError] at hCuts ⊢
        exact ih hCuts hVotes
      · rename_i hFine
        rw [fine_cons_of_fine rest hFine] at hCuts ⊢
        rw [voteKey_eq_countedKey (hCuts candidate List.mem_cons_self), castVote_eq_cast]
        obtain ⟨counted, hCounted, hTallied⟩ := ih
          (fun other hOther => hCuts other (List.mem_cons_of_mem _ hOther))
          (hVotes.cast candidate)
        rw [List.append_assoc] at hTallied
        exact ⟨counted, hCounted, hTallied⟩

theorem cutsCleanly_of_countVotes {candidates : List Json}
    {votes counted : List (String × Nat × Json)} (h : countVotes candidates votes = some counted) :
    ∀ candidate ∈ fine candidates, CutsCleanly candidate := by
  induction candidates generalizing votes with
  | nil => exact fun candidate hMem => absurd hMem List.not_mem_nil
  | cons candidate rest ih =>
      rw [countVotes] at h
      split at h
      · rename_i hError
        rw [fine_cons_of_error rest hError]
        exact ih h
      · rename_i hFine
        rw [fine_cons_of_fine rest hFine]
        split at h
        · rename_i key hKey
          rintro other (_ | ⟨_, hOther⟩)
          · exact cutsCleanly_of_voteKey hKey
          · exact ih h other hOther
        · cases h

def majorityVote (order : VoteOrder) (candidates : List Json) : Option Json :=
  (countVotes candidates []).map fun votes =>
    ((maxVote (order.iterate votes)).map (·.2.2)).getD
      (ParallelWorkflowEngine.firstOr candidates "Ensemble majority_vote: all runs failed")

variable {candidates : List Json}

theorem countP_countedKey (hCuts : ∀ candidate ∈ fine candidates, CutsCleanly candidate)
    {candidate : Json} (h : candidate ∈ fine candidates) :
    ((fine candidates).countP fun other => countedKey other = countedKey candidate) =
      votesFor candidates candidate := by
  rw [votesFor]
  refine List.countP_congr fun other hOther => ?_
  rw [decide_eq_true_iff, decide_eq_true_iff]
  exact countedKey_eq_iff (hCuts other hOther) (hCuts candidate h)

/-- The selected candidate has the most votes, if there is any vote. -/
theorem majorityVote_leads (hCuts : ∀ candidate ∈ fine candidates, CutsCleanly candidate)
    (order : VoteOrder) : ∃ selected, majorityVote order candidates = some selected ∧
      (fine candidates ≠ [] → selected ∈ fine candidates) ∧ Leads candidates selected := by
  obtain ⟨votes, hCounted, hTallied⟩ := countVotes_tallied hCuts Tally.Tallied.nil
  rw [List.nil_append] at hTallied
  rw [majorityVote, hCounted, maxVote_eq_lastMax, Option.map_some]
  refine ⟨_, rfl, ?_⟩
  cases hBest : Tally.lastMax (order.iterate votes) with
  | none =>
      have hNone : fine candidates = [] := by
        have hEmpty := Tally.lastMax_eq_none.1 hBest
        have hPerm := order.perm votes
        rw [hEmpty, List.nil_perm] at hPerm
        rw [List.eq_nil_iff_forall_not_mem]
        intro candidate hMem
        obtain ⟨vote, hVote, -⟩ := hTallied.complete candidate hMem
        rw [hPerm] at hVote
        exact absurd hVote List.not_mem_nil
      rw [Leads, hNone]
      exact ⟨fun h => absurd rfl h, fun other h => absurd h List.not_mem_nil⟩
  | some best =>
      obtain ⟨hMem, hMax⟩ := Tally.lastMax_spec hBest
      have hVote := (order.perm votes).mem_iff.1 hMem
      have hSeen := (hTallied.entry best hVote).1
      refine ⟨fun _ => hSeen, ?_⟩
      intro other hOther
      have hLe := hTallied.count_le hVote
        (fun vote h => hMax vote ((order.perm votes).mem_iff.2 h)) hOther
      rwa [countP_countedKey hCuts hOther, countP_countedKey hCuts hSeen] at hLe

/-- The selection panics just when a vote is cut inside a character. -/
theorem majorityVote_isSome_iff (order : VoteOrder) :
    (majorityVote order candidates).isSome = true ↔
      ∀ candidate ∈ fine candidates, CutsCleanly candidate := by
  constructor
  · intro h
    rw [majorityVote, Option.isSome_map] at h
    obtain ⟨counted, hCounted⟩ := Option.isSome_iff_exists.1 h
    exact cutsCleanly_of_countVotes hCounted
  · intro hCuts
    obtain ⟨selected, hSelected, -⟩ := majorityVote_leads hCuts order
    rw [hSelected]
    rfl

theorem majorityVote_order (hCuts : ∀ candidate ∈ fine candidates, CutsCleanly candidate)
    (hTop : ∀ a ∈ fine candidates, ∀ b ∈ fine candidates, Leads candidates a →
      Leads candidates b → SharesVote a b) (order order' : VoteOrder) :
    majorityVote order candidates = majorityVote order' candidates := by
  obtain ⟨votes, hCounted, hTallied⟩ := countVotes_tallied hCuts Tally.Tallied.nil
  rw [List.nil_append] at hTallied
  have hLeads : ∀ a ∈ fine candidates,
      (∀ c ∈ fine candidates,
        ((fine candidates).countP fun other => countedKey other = countedKey c) ≤
          (fine candidates).countP fun other => countedKey other = countedKey a) →
      Leads candidates a := by
    intro a ha hMax other hOther
    have hLe := hMax other hOther
    rwa [countP_countedKey hCuts hOther, countP_countedKey hCuts ha] at hLe
  have hSame := hTallied.lastMax_perm
    (fun a ha b hb hMaxA hMaxB => (countedKey_eq_iff (hCuts a ha) (hCuts b hb)).2
      (hTop a ha b hb (hLeads a ha hMaxA) (hLeads b hb hMaxB)))
    (order.perm votes) (order'.perm votes)
  rw [majorityVote, majorityVote, hCounted, maxVote_eq_lastMax, Option.map_some, Option.map_some,
    hSame]

end Counts

namespace ParallelWorkflowEngine

variable {E : ParallelWorkflowEngine H} {N : Nesting H} {D : Doubles}
  {candidates : List Json} {strategy : String} {judgeWfId : Option Uuid}

/-- The strategy leaves the selection to the votes. -/
def VotesByMajority (strategy : String) (judgeWfId : Option Uuid) : Prop :=
  strategy ≠ "first_pass" ∧ (strategy = "best_of_n" → judgeWfId = none)

theorem consensus_majority (h : VotesByMajority strategy judgeWfId) (order : VoteOrder) :
    E.consensus N D order strategy judgeWfId candidates =
      (majorityVote order candidates).map fun selected => ⟨selected, []⟩ := by
  obtain ⟨hFirst, hBest⟩ := h
  unfold consensus
  split
  · exact absurd rfl hFirst
  · cases hBest rfl
  · rw [majorityVote, Option.map_map]
    rfl

/-- Without a vote that is cut inside a character, the votes are those of equal prefixes, the
selected candidate leads, and with a single vote in front every order selects the same. -/
theorem votes_select_majority (hCuts : ∀ candidate ∈ fine candidates, CutsCleanly candidate) :
    (∀ a ∈ fine candidates, ∀ b ∈ fine candidates,
      (SharesVote a b ↔ (utf8 (voteValue a).text).take maxVoteKeyBytes =
        (utf8 (voteValue b).text).take maxVoteKeyBytes) ∧
      ((voteValue a).byteLength ≤ maxVoteKeyBytes → (voteValue b).byteLength ≤ maxVoteKeyBytes →
        (SharesVote a b ↔ voteValue a = voteValue b))) ∧
    ∀ (E : ParallelWorkflowEngine H) (N : Nesting H) (D : Doubles) (strategy : String)
      (judgeWfId : Option Uuid), VotesByMajority strategy judgeWfId →
      (∀ order, ∃ selected,
        E.consensus N D order strategy judgeWfId candidates = some ⟨selected, []⟩ ∧
        (fine candidates ≠ [] → selected ∈ fine candidates) ∧ Leads candidates selected) ∧
      ((∀ a ∈ fine candidates, ∀ b ∈ fine candidates, Leads candidates a → Leads candidates b →
          SharesVote a b) →
        ∀ order order', E.consensus N D order strategy judgeWfId candidates =
          E.consensus N D order' strategy judgeWfId candidates) := by
  constructor
  · intro a ha b hb
    exact ⟨sharesVote_iff (hCuts a ha) (hCuts b hb), sharesVote_iff_of_short⟩
  · intro E N D strategy judgeWfId hStrategy
    constructor
    · intro order
      obtain ⟨selected, hSelected, hFine, hLeads⟩ := majorityVote_leads hCuts order
      refine ⟨selected, ?_, hFine, hLeads⟩
      rw [consensus_majority hStrategy, hSelected, Option.map_some]
    · intro hTop order order'
      rw [consensus_majority hStrategy, consensus_majority hStrategy,
        majorityVote_order hCuts hTop order order']

end ParallelWorkflowEngine

section Samples

def voting (value : Json) : Json := .object [("result", value)]

theorem countVotes_panics {value : Json} (rest : List Json) (votes : List (String × Nat × Json))
    (h : voteKey (voting value) = none) : countVotes (voting value :: rest) votes = none := by
  have hFine : isErrorOutput (voting value) = false := rfl
  rw [countVotes, hFine, h]
  rfl

def repeated (c : Char) (n : Nat) : Json := .string (String.ofList (List.replicate n c))

theorem render_repeated {c : Char} (h : Json.escapeChar c = [c]) (n : Nat) :
    (repeated c n).render = '"' :: (List.replicate n c ++ ['"']) := by
  rw [repeated, Json.render, Json.renderString, String.toList_ofList, List.flatMap_replicate, h,
    List.flatten_replicate_singleton]

theorem byteLength_repeated {c : Char} (h : Json.escapeChar c = [c]) (n : Nat) :
    (repeated c n).byteLength = n * c.utf8Size + 2 := by
  rw [byteLength_eq_length, Json.text, render_repeated h, length_utf8_ofList]
  simp only [List.map_cons, List.map_append, List.map_replicate, List.map_nil, List.sum_cons,
    List.sum_append, List.sum_replicate_nat, List.sum_nil]
  have hQuote : '"'.utf8Size = 1 := by decide
  omega

/-- The first 8192 bytes of a long run of the letter `a` in quotes. -/
theorem voteKey_repeated {n : Nat} (h : 8191 ≤ n) :
    voteKey (voting (repeated 'a' n)) =
      some (String.ofList ('"' :: List.replicate 8191 'a')) := by
  have hPlain : Json.escapeChar 'a' = ['a'] := by decide
  have hNarrow : 'a'.utf8Size = 1 := by decide
  have hQuote : '"'.utf8Size = 1 := by decide
  have hValue : voteValue (voting (repeated 'a' n)) = repeated 'a' n := rfl
  have hText : (voteValue (voting (repeated 'a' n))).render =
      ('"' :: List.replicate 8191 'a') ++ (List.replicate (n - 8191) 'a' ++ ['"']) := by
    rw [hValue, render_repeated hPlain, List.cons_append, ← List.append_assoc,
      List.replicate_append_replicate, Nat.add_sub_cancel' h]
  refine voteKey_of_cut ?_ hText ?_
  · rw [hValue, byteLength_repeated hPlain, hNarrow, maxVoteKeyBytes]
    omega
  · simp only [List.map_cons, List.map_replicate, List.sum_cons, List.sum_replicate_nat, hNarrow,
      hQuote, maxVoteKeyBytes]

def backwards : VoteOrder := ⟨List.reverse, List.reverse_perm⟩

def agreeing : List Json :=
  [voting (.string "yes"), errorEnvelope "Ensemble child", voting (.string "no"),
    voting (.string "yes")]

theorem votes_select_majority_agreeing :
    (SharesVote (voting (.string "yes")) (voting (.string "yes")) ∧
      ¬ SharesVote (voting (.string "yes")) (voting (.string "no"))) ∧
    gatedEngine.consensus approvalNesting sampleDoubles sampleVoteOrder "majority_vote" none
        agreeing =
      gatedEngine.consensus approvalNesting sampleDoubles backwards "majority_vote" none
        agreeing := by
  have hFine : fine agreeing =
      [voting (.string "yes"), voting (.string "no"), voting (.string "yes")] := by
    rfl
  have hShort : ∀ candidate ∈ fine agreeing,
      (voteValue candidate).byteLength ≤ maxVoteKeyBytes := by
    rw [hFine]
    decide
  have hSound := ParallelWorkflowEngine.votes_select_majority (H := bareHost true)
    fun candidate h => fun hLong => absurd (hShort candidate h) (by omega)
  obtain ⟨hShares, hSelects⟩ := hSound
  have hYes : voting (.string "yes") ∈ fine agreeing := by
    rw [hFine]
    exact List.mem_cons_self
  have hNo : voting (.string "no") ∈ fine agreeing := by
    rw [hFine]
    exact List.mem_cons_of_mem _ List.mem_cons_self
  refine ⟨⟨?_, ?_⟩, ?_⟩
  · exact ((hShares _ hYes _ hYes).2 (hShort _ hYes) (hShort _ hYes)).2 rfl
  · rw [(hShares _ hYes _ hNo).2 (hShort _ hYes) (hShort _ hNo)]
    decide
  · refine (hSelects gatedEngine approvalNesting sampleDoubles "majority_vote" none
      ⟨by decide, fun _ => rfl⟩).2 ?_ _ _
    rw [hFine]
    decide

/-- A character on the cap panics, votes of long values with a common prefix are shared, and of two
single votes the one wins that is looked at last. -/
theorem votes_select_no_majority :
    gatedEngine.consensus approvalNesting sampleDoubles sampleVoteOrder "majority_vote" none
        [voting (repeated 'é' 5000)] = none ∧
    (SharesVote (voting (repeated 'a' 9000)) (voting (repeated 'a' 9001)) ∧
      voteValue (voting (repeated 'a' 9000)) ≠ voteValue (voting (repeated 'a' 9001))) ∧
    (gatedEngine.consensus approvalNesting sampleDoubles sampleVoteOrder "majority_vote" none
        [voting (.bool true), voting (.bool false)]).map Handled.report =
      some (voting (.bool false)) ∧
    (gatedEngine.consensus approvalNesting sampleDoubles backwards "majority_vote" none
        [voting (.bool true), voting (.bool false)]).map Handled.report =
      some (voting (.bool true)) := by
  refine ⟨?_, ⟨?_, ?_⟩, by decide, by decide⟩
  · have hPlain : Json.escapeChar 'é' = ['é'] := by decide
    have hLong : maxVoteKeyBytes < (repeated 'é' 5000).byteLength := by
      rw [byteLength_repeated hPlain, maxVoteKeyBytes, show 'é'.utf8Size = 2 by decide]
      omega
    have hCut : bytePrefix maxVoteKeyBytes (repeated 'é' 5000).text.toList = none := by
      rw [Json.text, String.toList_ofList, render_repeated hPlain,
        show maxVoteKeyBytes = 2 * 4095 + 1 + 1 from rfl]
      exact bytePrefix_narrow_repeated (by decide) 4095 (by omega) ['"']
    have hKey : voteKey (voting (repeated 'é' 5000)) = none := by
      exact voteKey_eq_none hLong hCut
    rw [ParallelWorkflowEngine.consensus_majority ⟨by decide, fun _ => rfl⟩, majorityVote,
      countVotes_panics [] [] hKey]
    rfl
  · rw [SharesVote, voteKey_repeated (by omega), voteKey_repeated (by omega)]
  · intro hSame
    have hLength := congrArg Json.byteLength hSame
    have hPlain : Json.escapeChar 'a' = ['a'] := by decide
    rw [show voteValue (voting (repeated 'a' 9000)) = repeated 'a' 9000 from rfl,
      show voteValue (voting (repeated 'a' 9001)) = repeated 'a' 9001 from rfl,
      byteLength_repeated hPlain, byteLength_repeated hPlain,
      show 'a'.utf8Size = 1 by decide] at hLength
    omega

end Samples

end TalosWorkflow
