/-
  PgClient.Proofs.Session.Counts

  The counts of an execution. The number -1 stands for an unknown count and is
  otherwise a number like any other, so a sum of counts is what it should be only
  as long as no count is negative and no sum leaves the range.
-/
import Mathlib.Algebra.Order.BigOperators.Group.List
import Mathlib.Algebra.Order.Ring.Int
import Mathlib.Data.List.DropRight
import PgClient.Proofs.Session.Collected
import PgClient.Text.Integer.Lemmas

namespace PgClient

/-! ## Sums -/

theorem toInt_add_of_lt {a b : Int64} (ha : 0 ≤ a.toInt) (hb : 0 ≤ b.toInt)
    (h : a.toInt + b.toInt < 2 ^ 63) : (a + b).toInt = a.toInt + b.toInt := by
  rw [Int64.toInt_add]
  exact Int.bmod_eq_of_le (by omega) (by omega)

/-- A count that is not negative is known. -/
theorem ne_unknownCount {n : Int64} (h : 0 ≤ n.toInt) : n ≠ unknownCount := by
  rintro rfl
  exact absurd h (by decide)

theorem sum_toInt_nonneg {counts : List Int64} (h : ∀ n ∈ counts, 0 ≤ n.toInt) :
    0 ≤ (counts.map Int64.toInt).sum :=
  List.sum_nonneg fun k hk => by
    obtain ⟨n, hn, rfl⟩ := List.mem_map.1 hk
    exact h n hn

/-- Counts added to a known count. -/
theorem toInt_foldl_accumulate {counts : List Int64} {start : Int64} (hstart : 0 ≤ start.toInt)
    (h : ∀ n ∈ counts, 0 ≤ n.toInt)
    (hsum : start.toInt + (counts.map Int64.toInt).sum < 2 ^ 63) :
    (counts.foldl accumulate start).toInt = start.toInt + (counts.map Int64.toInt).sum := by
  induction counts generalizing start with
  | nil => exact (Int.add_zero _).symm
  | cons n counts ih =>
    have hn := h n List.mem_cons_self
    have hcounts : ∀ k ∈ counts, 0 ≤ k.toInt := fun k hk => h k (List.mem_cons_of_mem _ hk)
    have hrest := sum_toInt_nonneg hcounts
    rw [List.map_cons, List.sum_cons] at hsum ⊢
    have hfirst : (accumulate start n).toInt = start.toInt + n.toInt := by
      rw [accumulate, if_neg (ne_unknownCount hstart)]
      exact toInt_add_of_lt hstart hn (by omega)
    rw [List.foldl_cons, ih (by omega) hcounts (by omega), hfirst, Int.add_assoc]

/-- The sum of some counts as an execution adds them up. -/
def sumCounts (counts : List Int64) : Int64 := counts.foldl accumulate unknownCount

/-- It is unknown if there are none, and else it is the sum. -/
theorem toInt_sumCounts {counts : List Int64} (h : ∀ n ∈ counts, 0 ≤ n.toInt)
    (hsum : (counts.map Int64.toInt).sum < 2 ^ 63) :
    (sumCounts counts).toInt = if counts = [] then -1 else (counts.map Int64.toInt).sum := by
  cases counts with
  | nil => rfl
  | cons n counts =>
    rw [List.map_cons, List.sum_cons] at hsum
    have hfirst : accumulate unknownCount n = n := if_pos rfl
    rw [if_neg (List.cons_ne_nil _ _), List.map_cons, List.sum_cons, sumCounts, List.foldl_cons,
      hfirst]
    exact toInt_foldl_accumulate (h n List.mem_cons_self)
      (fun k hk => h k (List.mem_cons_of_mem _ hk)) hsum

theorem sumCounts_eq_unknown_iff {counts : List Int64} (h : ∀ n ∈ counts, 0 ≤ n.toInt)
    (hsum : (counts.map Int64.toInt).sum < 2 ^ 63) :
    sumCounts counts = unknownCount ↔ counts = [] := by
  refine ⟨fun heq => by_contra fun hne => ?_, fun heq => heq ▸ rfl⟩
  have hvalue := toInt_sumCounts h hsum
  rw [if_neg hne] at hvalue
  exact ne_unknownCount (hvalue ▸ sum_toInt_nonneg h) heq

/-! ## Tags -/

namespace CommandTag

/-- What follows the last space of a tag, or all of it. -/
def lastWord (tag : String) : List Char := tag.toList.rtakeWhile (· ≠ ' ')

theorem lastWord_append {tag : String} {front last : List Char}
    (h : tag.toList = front ++ ' ' :: last) (hlast : ' ' ∉ last) : lastWord tag = last := by
  have hspaceless : ∀ c ∈ last.reverse, decide (c ≠ ' ') = true := fun c hc =>
    decide_eq_true (ne_of_mem_of_not_mem (List.mem_reverse.1 hc) hlast)
  rw [lastWord, List.rtakeWhile, h, List.reverse_append, List.reverse_cons, List.append_assoc,
    List.takeWhile_append_of_pos hspaceless, List.singleton_append,
    List.takeWhile_cons_of_neg (by decide), List.append_nil, List.reverse_reverse]

theorem lastWord_eq {tag : String} (h : ' ' ∉ tag.toList) : lastWord tag = tag.toList := by
  refine List.rtakeWhile_eq_self_iff.2 fun c hc => ?_
  exact decide_eq_true (ne_of_mem_of_not_mem hc h)

/-- A tag has the count that its last word is. -/
theorem count?_eq (tag : String) : count? tag = (Integer.readInt64 (lastWord tag)).toOption := by
  by_cases hspace : ' ' ∈ tag.toList.reverse
  · obtain ⟨last, front, hsplit, hlast⟩ := List.eq_append_cons_of_mem hspace
    have htag : tag.toList = front.reverse ++ ' ' :: last.reverse := by
      rw [← List.reverse_reverse tag.toList, hsplit]
      simp
    have hlast' : ' ' ∉ last.reverse := by rwa [List.mem_reverse]
    rw [lastWord_append htag hlast', count?, htag, Text.cutLast_append hlast']
  · rw [List.mem_reverse] at hspace
    rw [lastWord_eq hspace, count?, Text.cutLast_eq_none hspace]

end CommandTag

/-! ## Counts that count -/

/-- The count of a completed command: the last word of its tag, if that is a number and the first
word is one of some verbs. -/
def Backend.count? (verbs : List String) : Backend → Option Int64
  | .commandComplete tag =>
    if verbs.contains (String.ofList (CommandTag.verb tag)) then
      (Integer.readInt64 (CommandTag.lastWord tag)).toOption
    else none
  | _ => none

/-- The counts that some messages report, each by the verbs that are in force when it comes. The
messages before them are `past`. -/
def reportedCounts (past : List Backend) : List Backend → List Int64
  | [] => []
  | m :: messages =>
    (m.count? (verbsInForce past)).toList ++ reportedCounts (past ++ [m]) messages

theorem reportedCounts_concat (past messages : List Backend) (m : Backend) :
    reportedCounts past (messages ++ [m]) =
      reportedCounts past messages ++ (m.count? (verbsInForce (past ++ messages))).toList := by
  induction messages generalizing past with
  | nil => simp [reportedCounts]
  | cons m' messages ih =>
    rw [List.cons_append, reportedCounts, reportedCounts, ih, List.append_assoc, List.append_assoc]
    rfl

variable {columns : List Column} {past : List Backend} {copy : CopyStreams}

/-- An execution adds up the counts that are reported. -/
theorem collecting_rowCount : Collecting columns past copy fun messages outcome _ =>
    outcome.rowCount = sumCounts (reportedCounts past messages) where
  start := rfl
  step {s messages m outcome outcome' copy copy'} verbs collects before := by
    have uncounted (h : m.count? (verbsInForce (past ++ messages)) = none) :
        reportedCounts past (messages ++ [m]) = reportedCounts past messages := by
      rw [reportedCounts_concat, h]
      exact List.append_nil _
    cases collects with
    | completed tag =>
      rw [reportedCounts_concat, sumCounts, List.foldl_append, ← sumCounts, ← before,
        Backend.count?, ← verbs, ← CommandTag.count?_eq]
      simp only [CycleM.completed]
      cases CommandTag.count? tag with
      | none => simp only [ite_self, Option.toList_none, List.foldl_nil]
      | some n => cases s.countVerbs.contains (String.ofList (CommandTag.verb tag)) <;> rfl
    | row | written | unwritten | sent | begun =>
      rw [uncounted rfl]
      exact before
    | other uncollected =>
      have hnone : m.count? (verbsInForce (past ++ messages)) = none := by
        cases m <;> first | rfl | cases uncollected
      rw [uncounted hnone]
      exact before
  ready {messages status outcome copy} after := by
    have hnone : (Backend.readyForQuery status).count? (verbsInForce (past ++ messages)) = none :=
      rfl
    rwa [reportedCounts_concat, hnone, Option.toList_none, List.append_nil] at after

/-! ## Rows and one tag -/

/-- The tag of a completed command. -/
def Backend.tag? : Backend → Option String
  | .commandComplete tag => some tag
  | _ => none

/-- How many rows some messages bring. -/
def rowsAmong (messages : List Backend) : Nat := (messages.filterMap Backend.rowValues?).length

/-- What an execution counts besides, as long as there is at most one tag among its messages: the
number in the tag or, without one, the rows before it, if there are any. -/
structure Tallied (messages : List Backend) (outcome : Outcome) : Prop where
  rows : outcome.rows.length = rowsAmong messages
  untagged (h : ∀ m ∈ messages, m.tag? = none) :
    outcome.rowsInCommand = rowsAmong messages ∧ outcome.reportedCount = unknownCount
  tagged {front back : List Backend} {tag : String}
    (split : messages = front ++ .commandComplete tag :: back)
    (once : ∀ m ∈ front ++ back, m.tag? = none) :
    outcome.reportedCount =
      ((Integer.readInt64 (CommandTag.lastWord tag)).toOption.or
        (if 0 < rowsAmong front then some (Int64.ofNat (rowsAmong front)) else none)).getD
          unknownCount

theorem rowsAmong_concat (messages : List Backend) (m : Backend) :
    rowsAmong (messages ++ [m]) = rowsAmong messages + m.rowValues?.toList.length := by
  rw [rowsAmong, List.filterMap_append, List.length_append, rowsAmong]
  cases hvalues : m.rowValues? <;> simp [hvalues]

/-- A message without a tag adds its rows and leaves the counts as they are. -/
theorem Tallied.concat {messages : List Backend} {m : Backend} {outcome outcome' : Outcome}
    (h : Tallied messages outcome) (htag : m.tag? = none)
    (hrows : outcome'.rows.length = outcome.rows.length + m.rowValues?.toList.length)
    (hrunning : outcome'.rowsInCommand = outcome.rowsInCommand + m.rowValues?.toList.length)
    (hcount : outcome'.reportedCount = outcome.reportedCount) :
    Tallied (messages ++ [m]) outcome' where
  rows := by rw [hrows, h.rows, rowsAmong_concat]
  untagged hall := by
    obtain ⟨hin, hunknown⟩ := h.untagged fun m' hm => hall m' (List.mem_append_left _ hm)
    rw [hrunning, hin, rowsAmong_concat, hcount]
    exact ⟨rfl, hunknown⟩
  tagged {front back tag} split once := by
    obtain rfl | ⟨back, last, rfl⟩ := List.eq_nil_or_concat back
    · -- The tag would be the last message, which has none.
      obtain ⟨-, hlast⟩ := List.append_inj' split rfl
      rw [(List.cons.inj hlast).1] at htag
      cases htag
    · rw [List.concat_eq_append, ← List.cons_append, ← List.append_assoc] at split
      obtain ⟨hmessages, -⟩ := List.append_inj' split rfl
      rw [hcount]
      refine h.tagged hmessages fun m' hm => once m' ?_
      rw [List.concat_eq_append, ← List.append_assoc]
      exact List.mem_append_left _ hm

theorem collecting_tallied :
    Collecting columns past copy fun messages outcome _ => Tallied messages outcome where
  start :=
    { rows := rfl
      untagged := fun _ => ⟨rfl, rfl⟩
      tagged := fun split => by cases List.append_eq_nil_iff.1 split.symm |>.2 }
  step {s messages m outcome outcome' copy copy'} verbs collects before := by
    cases collects with
    | row decoded => exact before.concat rfl (by simp [Backend.rowValues?]) rfl rfl
    | completed tag =>
      refine ⟨?_, fun hall => ?_, fun {front back tag'} split once => ?_⟩
      · rw [rowsAmong_concat]
        exact before.rows
      · cases hall _ (List.mem_append_right _ List.mem_cons_self)
      · -- It is the one tag, since any other is in front of it.
        obtain rfl | ⟨back, last, rfl⟩ := List.eq_nil_or_concat back
        · obtain ⟨rfl, hlast⟩ := List.append_inj' split rfl
          cases hlast
          rw [List.append_nil] at once
          obtain ⟨hin, hunknown⟩ := before.untagged once
          simp only [CycleM.completed, hin, hunknown, CommandTag.count?_eq]
          split <;> rename_i h <;> rw [h] <;> rfl
        · rw [List.concat_eq_append, ← List.cons_append, ← List.append_assoc] at split
          obtain ⟨-, hlast⟩ := List.append_inj' split rfl
          have hmem : last ∈ front ++ back.concat last := by simp
          have htag := once last hmem
          rw [← (List.cons.inj hlast).1] at htag
          cases htag
    | written | unwritten | sent | begun => exact before.concat rfl rfl rfl rfl
    | other uncollected =>
      have htag : m.tag? = none := by cases m <;> first | rfl | cases uncollected
      have hvalues : m.rowValues? = none := by cases m <;> first | rfl | cases uncollected
      exact before.concat htag (by rw [hvalues]; rfl) (by rw [hvalues]; rfl) rfl
  ready {messages status outcome copy} after :=
    { rows := by
        have hrows := after.rows
        rwa [rowsAmong_concat] at hrows
      untagged := fun hall => by
        have huntagged := after.untagged fun m hm => by
          obtain hm | hm := List.mem_append.1 hm
          · exact hall m hm
          · rw [List.mem_singleton.1 hm]
            rfl
        rwa [rowsAmong_concat] at huntagged
      tagged := fun {front back tag} split once => by
        have hsplit : messages ++ [.readyForQuery status] =
            front ++ .commandComplete tag :: (back ++ [.readyForQuery status]) := by
          rw [split]
          simp
        refine after.tagged hsplit fun m hm => ?_
        rw [← List.append_assoc] at hm
        obtain hm | hm := List.mem_append.1 hm
        · exact once m hm
        · rw [List.mem_singleton.1 hm]
          rfl }

/-! ## The number of rows -/

theorem rowsAmong_le {messages front back : List Backend} (h : messages = front ++ back) :
    rowsAmong front ≤ rowsAmong messages := by
  rw [h, rowsAmong, rowsAmong, List.filterMap_append, List.length_append]
  exact Nat.le_add_right _ _

theorem toInt_ofNat_eq_iff {k n : Nat} (h : k ≤ n) :
    (Int64.ofNat k).toInt = n ↔ k = n ∧ n < 2 ^ 63 := by
  constructor
  · intro heq
    have hlt := (Int64.ofNat k).toInt_lt
    have hk : (Int64.ofNat k).toInt = k := Int64.toInt_ofNat_of_lt (by omega)
    omega
  · rintro ⟨rfl, hlt⟩
    exact Int64.toInt_ofNat_of_lt hlt

/-- A number in range is read back from its digits. -/
theorem readInt64_natural {n : Nat} (h : n < 2 ^ 63) :
    Integer.readInt64 (Integer.natural n) = .ok (Int64.ofNat n) := by
  have hn : (Int64.ofNat n).toInt = n := Int64.toInt_ofNat_of_lt h
  exact Integer.readInt64_spelled (hn ▸ .plain (.natural n))

namespace Tallied

variable {messages front back : List Backend} {outcome : Outcome} {verb : List Char} {n : Nat}

/-- A number at the end of the tag is reported, within the range. -/
theorem numbered (h : Tallied messages outcome)
    (split : messages = front ++
      .commandComplete (String.ofList (verb ++ ' ' :: Integer.natural n)) :: back)
    (once : ∀ m ∈ front ++ back, m.tag? = none) :
    outcome.reportedCount.toInt = n ↔ n < 2 ^ 63 := by
  have hspace : ' ' ∉ Integer.natural n := (Integer.Numeral.natural n).notMem (by decide)
  have hcount := h.tagged split once
  rw [CommandTag.lastWord_append String.toList_ofList hspace] at hcount
  constructor
  · intro heq
    have hlt := outcome.reportedCount.toInt_lt
    omega
  · intro hlt
    rw [hcount, readInt64_natural hlt]
    exact Int64.toInt_ofNat_of_lt hlt

/-- A tag without a number reports the rows before it, if there are any. -/
theorem reportedCount_eq (h : Tallied messages outcome)
    (split : messages = front ++ .commandComplete (String.ofList verb) :: back)
    (once : ∀ m ∈ front ++ back, m.tag? = none) (word : ' ' ∉ verb)
    (unnumbered : (Integer.readInt64 verb).toOption = none) :
    outcome.reportedCount =
      if 0 < rowsAmong front then Int64.ofNat (rowsAmong front) else unknownCount := by
  have hlast : CommandTag.lastWord (String.ofList verb) = verb := by
    rw [CommandTag.lastWord_eq (by rwa [String.toList_ofList]), String.toList_ofList]
  rw [h.tagged split once, hlast, unnumbered, Option.none_or]
  split <;> rfl

/-- So the number of all rows is reported if they came before the tag and there are any. -/
theorem unnumbered_iff (h : Tallied messages outcome)
    (split : messages = front ++ .commandComplete (String.ofList verb) :: back)
    (once : ∀ m ∈ front ++ back, m.tag? = none) (word : ' ' ∉ verb)
    (unnumbered : (Integer.readInt64 verb).toOption = none) :
    outcome.reportedCount.toInt = rowsAmong messages ↔
      0 < rowsAmong messages ∧ rowsAmong front = rowsAmong messages ∧
        rowsAmong messages < 2 ^ 63 := by
  have hle := rowsAmong_le split
  rw [h.reportedCount_eq split once word unnumbered]
  by_cases hsome : 0 < rowsAmong front
  · rw [if_pos hsome, toInt_ofNat_eq_iff hle]
    exact ⟨fun h => ⟨by omega, h⟩, fun h => h.2⟩
  · have hunknown : unknownCount.toInt = -1 := rfl
    rw [if_neg hsome, hunknown]
    exact ⟨fun h => by omega, fun h => by omega⟩

end Tallied

end PgClient
