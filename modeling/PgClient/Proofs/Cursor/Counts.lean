/-
  PgClient.Proofs.Cursor.Counts

  The counts of a cursor: what the tags of the last execution add up to, the sum
  over many sets of arguments, and the number of rows that an execution returned
  as the server or the client has counted them.
-/
import PgClient.Proofs.Connection.Executed
import PgClient.Proofs.Cursor.Trace
import PgClient.Proofs.Session.Counts

namespace PgClient

open Connection ConnectionM Steps

/-! ## Many sets of arguments -/

namespace Connection

/-- A statement was executed for each set of arguments, and the tags of each execution have
reported some counts. -/
inductive Counts (sql : String) : CopyStreams → Connection → List Placeholder.Arguments →
    List (List Int64) → Connection → Prop
  | nil (copy : CopyStreams) (c : Connection) : Counts sql copy c [] [] c
  | cons {copy copy' : CopyStreams} {c d e : Connection} {args : Placeholder.Arguments}
    {sets : List Placeholder.Arguments} {statement : Statement} {outcome : Outcome}
    {before body : List Event} {counts : List (List Int64)}
    (run : Connection.run sql args copy c = ((.ok (statement, outcome), copy'), d))
    (executed : Executed c.session.events d.session.events before body)
    (rest : Counts sql copy' d sets counts e) :
    Counts sql copy c (args :: sets)
      (reportedCounts (receivedIn before) (receivedIn body) :: counts) e

theorem Counts.length {sql : String} {copy : CopyStreams} {c d : Connection}
    {sets : List Placeholder.Arguments} {counts : List (List Int64)}
    (h : Counts sql copy c sets counts d) : counts.length = sets.length := by
  induction h with
  | nil => rfl
  | cons run executed rest ih => rw [List.length_cons, List.length_cons, ih]

/-- A call that succeeds counts what its tags have reported. -/
theorem run_counts {c c' : Connection} {sql : String} {args : Placeholder.Arguments}
    {copy copy' : CopyStreams} {statement : Statement} {outcome : Outcome}
    (hs : c.session.Settled) (hversed : c.session.Versed)
    (h : Connection.run sql args copy c = ((.ok (statement, outcome), copy'), c')) :
    ∃ before body, Executed c.session.events c'.session.events before body ∧
      outcome.rowCount =
        sumCounts (reportedCounts (receivedIn before) (receivedIn body)) := by
  obtain ⟨before, body, hexecuted, hcollects⟩ := run_collects hs hversed h
  exact ⟨before, body, hexecuted, hcollects _ collecting_rowCount⟩

/-- Nor does a call unsettle a connection. -/
theorem run_keeps {c : Connection} (sql : String) (args : Placeholder.Arguments)
    (copy : CopyStreams) (hs : c.session.Settled) (hversed : c.session.Versed) :
    (Connection.run sql args copy c).2.session.Settled ∧
      (Connection.run sql args copy c).2.session.Versed := by
  have hperforms := execute_performs sql args copy (!c.config.autocommit) hs
  exact ⟨hperforms.settled hs, hperforms.versed hversed⟩

end Connection

namespace Cursor

/-- One after the other, the counts of all executions are added to the total. -/
theorem executeEach_counts {sql : String} {copy copy' : CopyStreams} {total total' : Option Int64}
    {last last' : Option Statement} {sets : List Placeholder.Arguments} {c c' : Connection}
    (hs : c.session.Settled) (hversed : c.session.Versed)
    (h : executeEach sql copy total last sets c = ((.ok (total', last'), copy'), c')) :
    ∃ counts, Counts sql copy c sets counts c' ∧
      total' = (counts.map sumCounts).foldl addCount total := by
  induction sets generalizing copy total last c with
  | nil =>
    obtain ⟨hout, rfl⟩ := Prod.mk.inj h
    obtain ⟨hr, -⟩ := Prod.mk.inj hout
    obtain ⟨rfl, -⟩ := Prod.mk.inj (Except.ok.inj hr)
    exact ⟨[], .nil copy c, rfl⟩
  | cons args sets ih =>
    rw [executeEach, state_bind] at h
    obtain ⟨hsettled, hversed'⟩ := run_keeps sql args copy hs hversed
    rcases hrun : Connection.run sql args copy c with ⟨⟨e | ⟨statement, outcome⟩, copy₁⟩, d⟩
    · rw [hrun] at h
      cases (Prod.mk.inj (Prod.mk.inj h).1).1
    · rw [hrun] at h hsettled hversed'
      obtain ⟨before, body, hexecuted, hcount⟩ := run_counts hs hversed hrun
      obtain ⟨counts, hcounts, htotal⟩ := ih hsettled hversed' h
      refine ⟨_ :: counts, .cons hrun hexecuted hcounts, ?_⟩
      rw [htotal, hcount, List.map_cons, List.foldl_cons]

/-- A total that is unknown stays so. -/
theorem foldl_addCount_unknown (counts : List Int64) :
    counts.foldl addCount (some unknownCount) = some unknownCount := by
  induction counts with
  | nil => rfl
  | cons n counts ih =>
    have hfirst : addCount (some unknownCount) n = some unknownCount := if_pos (.inr rfl)
    rw [List.foldl_cons, hfirst, ih]

/-- One unknown count makes the total unknown, wherever it stands. -/
theorem foldl_addCount_of_mem {counts : List Int64} (total : Option Int64)
    (h : unknownCount ∈ counts) : counts.foldl addCount total = some unknownCount := by
  induction counts generalizing total with
  | nil => cases h
  | cons n counts ih =>
    rw [List.foldl_cons]
    obtain rfl | h := List.mem_cons.1 h
    · have hfirst : addCount total unknownCount = some unknownCount := if_pos (.inl rfl)
      rw [hfirst, foldl_addCount_unknown]
    · exact ih _ h

/-- Known counts are added to a known total. -/
theorem foldl_addCount_known {counts : List Int64} {start : Int64} (hstart : 0 ≤ start.toInt)
    (h : ∀ n ∈ counts, 0 ≤ n.toInt)
    (hsum : start.toInt + (counts.map Int64.toInt).sum < 2 ^ 63) :
    counts.foldl addCount (some start) = some (counts.foldl accumulate start) := by
  induction counts generalizing start with
  | nil => rfl
  | cons n counts ih =>
    have hn := h n List.mem_cons_self
    have hcounts : ∀ k ∈ counts, 0 ≤ k.toInt := fun k hk => h k (List.mem_cons_of_mem _ hk)
    have hrest := sum_toInt_nonneg hcounts
    rw [List.map_cons, List.sum_cons] at hsum
    have hknown : ¬ (n = unknownCount ∨ some start = some unknownCount) := by
      rintro (hn' | hstart')
      · exact ne_unknownCount hn hn'
      · exact ne_unknownCount hstart (Option.some.inj hstart')
    have hadd := toInt_add_of_lt hstart hn (by omega)
    rw [List.foldl_cons, List.foldl_cons, addCount, if_neg hknown, accumulate,
      if_neg (ne_unknownCount hstart)]
    exact ih (by omega) hcounts (by omega)

/-- The total of some counts is unknown if there are none or one of them is unknown, and else it
is their sum. -/
theorem toInt_total {counts : List Int64} (h : ∀ n ∈ counts, n ≠ unknownCount → 0 ≤ n.toInt)
    (hsum : unknownCount ∉ counts → (counts.map Int64.toInt).sum < 2 ^ 63) :
    ((counts.foldl addCount none).getD unknownCount).toInt =
      if counts = [] ∨ unknownCount ∈ counts then -1 else (counts.map Int64.toInt).sum := by
  by_cases hunknown : unknownCount ∈ counts
  · rw [if_pos (.inr hunknown), foldl_addCount_of_mem none hunknown]
    rfl
  cases counts with
  | nil => rfl
  | cons n counts =>
    have hnonneg : ∀ k ∈ n :: counts, 0 ≤ k.toInt := fun k hk =>
      h k hk (ne_of_mem_of_not_mem hk hunknown)
    have hn := hnonneg n List.mem_cons_self
    have hcounts : ∀ k ∈ counts, 0 ≤ k.toInt := fun k hk => hnonneg k (List.mem_cons_of_mem _ hk)
    have hsum := hsum hunknown
    rw [List.map_cons, List.sum_cons] at hsum
    have hfirst : addCount none n = some n := by
      rw [addCount, if_neg]
      rintro (hn' | hnone)
      · exact ne_unknownCount hn hn'
      · cases hnone
    have hneither : ¬ (n :: counts = [] ∨ unknownCount ∈ n :: counts) := by
      rintro (hnil | hmem)
      · cases hnil
      · exact hunknown hmem
    rw [if_neg hneither, List.map_cons, List.sum_cons, List.foldl_cons, hfirst,
      foldl_addCount_known hn hcounts hsum, Option.getD_some,
      toInt_foldl_accumulate hn hcounts hsum]

/-- The same of executions, each of which adds up the counts of its tags. -/
theorem toInt_total_sumCounts {counts : List (List Int64)}
    (h : ∀ n ∈ counts.flatten, 0 ≤ n.toInt)
    (hsum : (counts.flatten.map Int64.toInt).sum < 2 ^ 63) :
    (((counts.map sumCounts).foldl addCount none).getD unknownCount).toInt =
      if counts = [] ∨ [] ∈ counts then -1 else (counts.flatten.map Int64.toInt).sum := by
  have hmembers : ∀ part ∈ counts, ∀ n ∈ part, 0 ≤ n.toInt := fun part hpart n hn =>
    h n (List.mem_flatten_of_mem hpart hn)
  have hflatten : (counts.flatten.map Int64.toInt).sum =
      (counts.map fun part => (part.map Int64.toInt).sum).sum := by
    rw [List.map_flatten, List.sum_flatten, List.map_map]
    rfl
  -- No part exceeds the whole, so every execution counts right.
  have hparts : ∀ part ∈ counts, (part.map Int64.toInt).sum < 2 ^ 63 := by
    intro part hpart
    refine lt_of_le_of_lt ?_ hsum
    rw [hflatten]
    refine List.single_le_sum (fun k hk => ?_) _ (List.mem_map_of_mem hpart)
    obtain ⟨part, hpart, rfl⟩ := List.mem_map.1 hk
    exact sum_toInt_nonneg (hmembers part hpart)
  have hunknown : unknownCount ∈ counts.map sumCounts ↔ [] ∈ counts := by
    refine ⟨fun hmem => ?_, fun hmem => List.mem_map.2 ⟨[], hmem, rfl⟩⟩
    obtain ⟨part, hpart, heq⟩ := List.mem_map.1 hmem
    rw [sumCounts_eq_unknown_iff (hmembers part hpart) (hparts part hpart)] at heq
    exact heq ▸ hpart
  have htotal (hknown : [] ∉ counts) : ((counts.map sumCounts).map Int64.toInt).sum =
      (counts.flatten.map Int64.toInt).sum := by
    rw [hflatten, List.map_map]
    refine congrArg List.sum (List.map_congr_left fun part hpart => ?_)
    exact (toInt_sumCounts (hmembers part hpart) (hparts part hpart)).trans
      (if_neg (ne_of_mem_of_not_mem hpart hknown))
  rw [toInt_total]
  · simp only [hunknown, List.map_eq_nil_iff]
    by_cases hempty : counts = [] ∨ [] ∈ counts
    · rw [if_pos hempty, if_pos hempty]
    · rw [if_neg hempty, if_neg hempty, htotal fun hmem => hempty (.inr hmem)]
  · intro n hn hknown
    obtain ⟨part, hpart, rfl⟩ := List.mem_map.1 hn
    have hne : part ≠ [] := fun heq => hknown (heq ▸ rfl)
    rw [toInt_sumCounts (hmembers part hpart) (hparts part hpart), if_neg hne]
    exact sum_toInt_nonneg (hmembers part hpart)
  · exact fun hnone => htotal (mt hunknown.2 hnone) ▸ hsum

/-- An execution for many sets of arguments that succeeds leaves the total in the cursor. -/
theorem executeMany_result {cur cur' : Cursor} {sql : String}
    {sets : List Placeholder.Arguments} {c c' : Connection}
    (h : cur.executeMany sql sets c = ((.ok (), cur'), c')) :
    ∃ total last copy,
      executeEach sql cur.copyStreams none none sets c = ((.ok (total, last), copy), c') ∧
        cur'.rowCount = total.getD unknownCount := by
  unfold Cursor.executeMany at h
  by_cases closed : cur.closed = true
  · rw [if_pos closed] at h
    cases (Prod.mk.inj (Prod.mk.inj h).1).1
  · rw [if_neg closed, state_bind] at h
    rcases hrun : executeEach sql cur.copyStreams none none sets c with
      ⟨⟨e | ⟨total, last⟩, copy⟩, d⟩ <;> rw [hrun] at h
    · cases (Prod.mk.inj (Prod.mk.inj h).1).1
    · obtain ⟨hout, rfl⟩ := Prod.mk.inj h
      obtain ⟨-, rfl⟩ := Prod.mk.inj hout
      exact ⟨total, last, copy, rfl, rfl⟩

/-! ## The row count -/

/-- As long as the counts that count are not negative and their sum stays in range: after an
execution that succeeds the row count is the sum of the counts that its tags have reported, by the
verbs in force at each of them, and -1 if there are none. After one for many sets of arguments it
is the sum over all sets if there are any and a count is known for each of them, and else -1. -/
theorem rowCount_sums {stream : Stream} {config : Config} {options : ConnectOptions}
    {c : Connection} (h : connect stream config options = (.ok (), c)) (ops : List Operation)
    (cur : Cursor) (sql : String) :
    (∀ args cur' d, cur.execute sql args (c.runs ops) = ((.ok (), cur'), d) →
      ∃ before body, Executed (c.runs ops).session.events d.session.events before body ∧
        let counts := reportedCounts (receivedIn before) (receivedIn body)
        ((∀ n ∈ counts, 0 ≤ n.toInt) → (counts.map Int64.toInt).sum < 2 ^ 63 →
          cur'.rowCount.toInt =
            if counts = [] then -1 else (counts.map Int64.toInt).sum)) ∧
      ∀ sets cur' d, cur.executeMany sql sets (c.runs ops) = ((.ok (), cur'), d) →
        ∃ counts, Counts sql cur.copyStreams (c.runs ops) sets counts d ∧
          ((∀ n ∈ counts.flatten, 0 ≤ n.toInt) →
            (counts.flatten.map Int64.toInt).sum < 2 ^ 63 →
              cur'.rowCount.toInt =
                if sets = [] ∨ [] ∈ counts then -1 else (counts.flatten.map Int64.toInt).sum) := by
  obtain ⟨hsettled, hversed⟩ := runs_of_connect h ops
  constructor
  · intro args cur' d hexecute
    obtain ⟨-, statement, outcome, copy, hrun, rfl⟩ := execute_result hexecute
    obtain ⟨before, body, hexecuted, hcount⟩ := run_counts hsettled hversed hrun
    refine ⟨before, body, hexecuted, fun hnonneg hsum => ?_⟩
    rw [hcount]
    exact toInt_sumCounts hnonneg hsum
  · intro sets cur' d hexecute
    obtain ⟨total, last, copy, heach, hcount⟩ := executeMany_result hexecute
    obtain ⟨counts, hcounts, rfl⟩ := executeEach_counts hsettled hversed heach
    refine ⟨counts, hcounts, fun hnonneg hsum => ?_⟩
    have hempty : sets = [] ↔ counts = [] := by
      rw [← List.length_eq_zero_iff, ← List.length_eq_zero_iff, hcounts.length]
    rw [hcount, toInt_total_sumCounts hnonneg hsum]
    simp only [hempty]

theorem nonneg_of_all {counts : List Int64}
    (h : counts.all (fun n => decide (0 ≤ n.toInt)) = true) : ∀ n ∈ counts, 0 ≤ n.toInt :=
  fun n hn => of_decide_eq_true (List.all_eq_true.1 h n hn)

theorem eq_ok_of_isOk {r : Except Error Unit} (h : r.isOk = true) : r = .ok () := by
  rcases r with e | ⟨⟨⟩⟩
  · cases h
  · rfl

/-- What a server sends that executes a statement three times. In the first cycle it completes an
INSERT of two rows and, after it has said to be of a version that does not count SELECT, a SELECT
and an UPDATE; in the others an INSERT of one row and of two. -/
def counting : Bytes :=
  [0x6E, 0, 0, 0, 4, 0x5A, 0, 0, 0, 5, 0x49,
    0x43, 0, 0, 0, 15, 0x49, 0x4E, 0x53, 0x45, 0x52, 0x54, 0x20, 0x30, 0x20, 0x32, 0,
    0x53, 0, 0, 0, 23, 0x73, 0x65, 0x72, 0x76, 0x65, 0x72, 0x5F, 0x76, 0x65, 0x72, 0x73, 0x69,
    0x6F, 0x6E, 0, 0x38, 0x2E, 0x30, 0,
    0x43, 0, 0, 0, 13, 0x53, 0x45, 0x4C, 0x45, 0x43, 0x54, 0x20, 0x35, 0,
    0x43, 0, 0, 0, 13, 0x55, 0x50, 0x44, 0x41, 0x54, 0x45, 0x20, 0x33, 0, 0x5A, 0, 0, 0, 5, 0x49,
    0x43, 0, 0, 0, 15, 0x49, 0x4E, 0x53, 0x45, 0x52, 0x54, 0x20, 0x30, 0x20, 0x31, 0,
    0x5A, 0, 0, 0, 5, 0x49,
    0x43, 0, 0, 0, 15, 0x49, 0x4E, 0x53, 0x45, 0x52, 0x54, 0x20, 0x30, 0x20, 0x32, 0,
    0x5A, 0, 0, 0, 5, 0x49]

/-- The SELECT does not count, and the total over two sets is three. -/
theorem rowCount_sums_counting :
    let ops : List Operation := [.setAutocommit true, .execute {} "INSERT" .none]
    let first := Cursor.execute {} "INSERT" .none ((greeted counting).2.runs [.setAutocommit true])
    let both := Cursor.executeMany {} "INSERT" [.none, .none] ((greeted counting).2.runs ops)
    (greeted counting).1 = .ok () ∧ first.1.1.isOk = true ∧ both.1.1.isOk = true ∧
      first.1.2.rowCount.toInt = 5 ∧ both.1.2.rowCount.toInt = 3 := by
  intro ops first both
  have hgreeted : (greeted counting).1 = .ok () := by decide +kernel
  have hfirst : first.1.1.isOk = true := by decide +kernel
  have hboth : both.1.1.isOk = true := by decide +kernel
  refine ⟨hgreeted, hfirst, hboth, ?_, ?_⟩
  · obtain ⟨before, body, hexecuted, hsum⟩ :=
      (rowCount_sums (Prod.ext hgreeted rfl) [.setAutocommit true] {} "INSERT").1 .none _ _
        (Prod.ext (Prod.ext (eq_ok_of_isOk hfirst) rfl) rfl)
    -- The cycle that the theorem speaks of is the one that the server has sent.
    obtain ⟨rfl, rfl⟩ := hexecuted.unique (.of_messages (first.2.session.events.take 6)
      "redshift_wire_statement__1" []
      [.commandComplete "INSERT 0 2", .parameterStatus "server_version" "8.0",
        .commandComplete "SELECT 5", .commandComplete "UPDATE 3"]
      .idle (by decide +kernel) (by decide +kernel) (by decide))
    exact (hsum (nonneg_of_all (by decide +kernel)) (by decide +kernel)).trans (by decide +kernel)
  · obtain ⟨counts, hcounts, hsum⟩ :=
      (rowCount_sums (Prod.ext hgreeted rfl) ops {} "INSERT").2 [.none, .none] _ _
        (Prod.ext (Prod.ext (eq_ok_of_isOk hboth) rfl) rfl)
    obtain _ | ⟨run, executed, _ | ⟨run', executed', _ | _⟩⟩ := hcounts
    -- Each run leaves the connection that the next one starts from.
    obtain rfl := congrArg Prod.snd run
    obtain rfl := congrArg (fun out => out.1.2) run
    obtain ⟨rfl, rfl⟩ := executed.unique (.of_messages
      ((greeted counting).2.runs ops).session.events "redshift_wire_statement__1" []
      [.commandComplete "INSERT 0 1"] .idle (by decide +kernel) List.prefix_rfl (by decide))
    obtain ⟨rfl, rfl⟩ := executed'.unique (.of_messages (both.2.session.events.take 15)
      "redshift_wire_statement__1" [] [.commandComplete "INSERT 0 2"] .idle
      (by decide +kernel) (by decide +kernel) (by decide))
    exact (hsum (nonneg_of_all (by decide +kernel)) (by decide +kernel)).trans (by decide +kernel)

/-! ## The reported count -/

theorem fetchAll_eq {cur : Cursor} (hopen : cur.closed = false)
    (hreturns : cur.description.isSome = true) :
    cur.fetchAll = .ok (cur.rows, { cur with rows := [] }) := by
  have hset : cur.ensureResultSet = .ok () := by
    rw [ensureResultSet, if_neg (Bool.eq_false_iff.1 hopen), if_neg]
    rw [Option.isNone_eq_false_iff.2 hreturns]
    exact Bool.false_ne_true
  rw [fetchAll, hset]
  rfl

/-- After an execution that succeeds and returns rows, `fetchAll` gives the rows of its cycle. If
there is one tag in the cycle and it ends in their number, the reported count is that number,
within the range. If the tag is no more than a verb, the reported count is their number just if
there are any and all of them came before the tag; where there are none it is unknown. -/
theorem reportedCount_true_iff {stream : Stream} {config : Config} {options : ConnectOptions}
    {c d : Connection} (h : connect stream config options = (.ok (), c)) (ops : List Operation)
    {cur cur' : Cursor} {sql : String} {args : Placeholder.Arguments}
    (hexecute : cur.execute sql args (c.runs ops) = ((.ok (), cur'), d))
    (hreturns : cur'.description.isSome = true) :
    ∃ before body, Executed (c.runs ops).session.events d.session.events before body ∧
      let n := rowsAmong (receivedIn body)
      (∃ rows cur'', cur'.fetchAll = .ok (rows, cur'') ∧ rows.length = n) ∧
        ∀ front back verb, (∀ m ∈ front ++ back, m.tag? = none) →
          (receivedIn body = front ++
              .commandComplete (String.ofList (verb ++ ' ' :: Integer.natural n)) :: back →
            (cur'.reportedCount.toInt = n ↔ n < 2 ^ 63)) ∧
          (receivedIn body = front ++ .commandComplete (String.ofList verb) :: back →
            ' ' ∉ verb → (Integer.readInt64 verb).toOption = none →
              (cur'.reportedCount.toInt = n ↔ 0 < n ∧ rowsAmong front = n ∧ n < 2 ^ 63) ∧
                (n = 0 → cur'.reportedCount = unknownCount)) := by
  obtain ⟨hsettled, hversed⟩ := runs_of_connect h ops
  obtain ⟨hopen, statement, outcome, copy, hrun, hresult⟩ := execute_result hexecute
  obtain ⟨before, body, hexecuted, hcollects⟩ := run_collects hsettled hversed hrun
  have htallied : Tallied (receivedIn body) outcome := hcollects _ collecting_tallied
  have hrows : cur'.rows = outcome.rows := congrArg Cursor.rows hresult
  have hcount : cur'.reportedCount = outcome.reportedCount :=
    congrArg Cursor.reportedCount hresult
  have hopen' : cur'.closed = false := (congrArg Cursor.closed hresult).trans hopen
  refine ⟨before, body, hexecuted,
    ⟨cur'.rows, _, fetchAll_eq hopen' hreturns, hrows ▸ htallied.rows⟩, ?_⟩
  intro front back verb honce
  rw [hcount]
  refine ⟨fun hsplit => htallied.numbered hsplit honce, fun hsplit hword hnumber => ?_⟩
  have hfront := rowsAmong_le hsplit
  refine ⟨htallied.unnumbered_iff hsplit honce hword hnumber, fun hnone => ?_⟩
  rw [htallied.reportedCount_eq hsplit honce hword hnumber, if_neg (by omega)]

/-- What a server sends that describes a statement as one with an integer column, and then sends
some rows and the tag SELECT without a number. -/
def selecting (rows : Bytes) : Bytes :=
  [0x54, 0, 0, 0, 26, 0, 1, 0x61, 0, 0, 0, 0, 0, 0, 0, 0, 0, 0, 23, 0, 4, 255, 255, 255, 255, 0, 0,
    0x5A, 0, 0, 0, 5, 0x49] ++ rows ++
  [0x43, 0, 0, 0, 11, 0x53, 0x45, 0x4C, 0x45, 0x43, 0x54, 0, 0x5A, 0, 0, 0, 5, 0x49]

/-- Two rows and a notification between them. -/
def twoRows : Bytes :=
  [0x44, 0, 0, 0, 14, 0, 1, 0, 0, 0, 4, 0, 0, 0, 7, 0x41, 0, 0, 0, 11, 0, 0, 0, 9, 0x61, 0, 0,
    0x44, 0, 0, 0, 14, 0, 1, 0, 0, 0, 4, 0, 0, 0, 8]

/-- Two rows are counted. -/
theorem reportedCount_true_iff_two :
    let c := (greeted (selecting twoRows)).2
    let out := Cursor.execute {} "SELECT a" .none (c.runs [.setAutocommit true])
    (greeted (selecting twoRows)).1 = .ok () ∧ out.1.1.isOk = true ∧
      out.1.2.description.isSome = true ∧ out.1.2.reportedCount.toInt = 2 ∧
      ∃ rows cur', out.1.2.fetchAll = .ok (rows, cur') ∧ rows.length = 2 := by
  intro c out
  have hgreeted : (greeted (selecting twoRows)).1 = .ok () := by decide +kernel
  have hok : out.1.1.isOk = true := by decide +kernel
  have hreturns : out.1.2.description.isSome = true := by decide +kernel
  obtain ⟨before, body, hexecuted, hrows, hcounts⟩ :=
    reportedCount_true_iff (Prod.ext hgreeted rfl) [.setAutocommit true]
      (Prod.ext (Prod.ext (eq_ok_of_isOk hok) rfl) rfl) hreturns
  obtain ⟨rfl, rfl⟩ := hexecuted.unique (.of_messages (out.2.session.events.take 6)
    "redshift_wire_statement__1" [.binary]
    [.dataRow [some [0, 0, 0, 7]], .notification 9 "a" "", .dataRow [some [0, 0, 0, 8]],
      .commandComplete "SELECT"]
    .idle (by decide +kernel) (by decide +kernel) (by decide))
  have hcount := ((hcounts [.dataRow [some [0, 0, 0, 7]], .notification 9 "a" "",
    .dataRow [some [0, 0, 0, 8]]] [] "SELECT".toList (by decide)).2 (by decide +kernel) (by decide)
      (by decide +kernel)).1
  exact ⟨hgreeted, hok, hreturns, hcount.2 (by decide +kernel), hrows⟩

/-- No rows are not: a statement that returns rows has none of them, and the reported count is
unknown. -/
theorem no_rows_uncounted :
    let c := (greeted (selecting [])).2.runs [.setAutocommit true]
    let out := Cursor.execute {} "SELECT a" .none c
    (greeted (selecting [])).1 = .ok () ∧ out.1.1.isOk = true ∧
      out.1.2.description.isSome = true ∧
      Executed c.session.events out.2.session.events (out.2.session.events.take 6)
        [.received (.commandComplete "SELECT")] ∧
      out.1.2.rows.length = 0 ∧ out.1.2.reportedCount.toInt ≠ 0 := by
  intro c out
  refine ⟨by decide +kernel, by decide +kernel, by decide +kernel, ?_, by decide +kernel,
    by decide +kernel⟩
  exact .of_messages _ "redshift_wire_statement__1" [.binary] [.commandComplete "SELECT"] .idle
    (by decide +kernel) (by decide +kernel) (by decide)

end Cursor

end PgClient
