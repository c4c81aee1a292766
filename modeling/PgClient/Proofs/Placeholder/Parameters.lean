/-
  PgClient.Proofs.Placeholder.Parameters

  Converted SQL as the server reads it. A dollar sign takes all digits behind it
  with it, so the parameter of a placeholder has its own number just where no
  digit comes right after the placeholder; a digit there becomes part of the
  number.
-/
import PgClient.Proofs.Placeholder.Naming

namespace PgClient.Placeholder

open Steps

/-! ## Parameters -/

/-- What a server takes for parameters: each dollar sign with all of the digits right behind it,
if there are any. -/
def parameters : List Char → List (List Char)
  | [] => []
  | c :: rest =>
    let digits := rest.takeWhile Char.isDigit
    if c = '$' ∧ digits ≠ [] then (c :: digits) :: parameters rest else parameters rest

/-- The parameters of a text whose placeholders have these texts behind them; the first of them has
the number after `count`. -/
def merged (count : Nat) (tails : List (List Char)) : List (List Char) :=
  (tails.zipIdx (count + 1)).map fun (tail, n) => numbered n ++ tail.takeWhile Char.isDigit

theorem parameters_cons {c : Char} (hc : c ≠ '$') (rest : List Char) :
    parameters (c :: rest) = parameters rest := by
  rw [parameters, if_neg fun h => hc h.1]

theorem parameters_append {cs : List Char} (hcs : '$' ∉ cs) (rest : List Char) :
    parameters (cs ++ rest) = parameters rest := by
  induction cs with
  | nil => rfl
  | cons c cs ih =>
    rw [List.mem_cons, not_or] at hcs
    rw [List.cons_append, parameters_cons (Ne.symm hcs.1), ih hcs.2]

/-- A number goes on with the digits behind it. -/
theorem parameters_numbered (n : Nat) (rest : List Char) :
    parameters (numbered n ++ rest) =
      (numbered n ++ rest.takeWhile Char.isDigit) :: parameters rest := by
  have hdigits : ∀ c ∈ Integer.natural n, c.isDigit = true :=
    fun c hc => Nat.isDigit_of_mem_toDigits (by decide) (by decide) hc
  have hdollar : '$' ∉ Integer.natural n := fun hmem => absurd (hdigits _ hmem) (by decide)
  have hempty : Integer.natural n ≠ [] := Nat.toDigits_ne_nil
  rw [numbered, List.cons_append, parameters, List.takeWhile_append_of_pos hdigits,
    parameters_append hdollar, if_pos ⟨rfl, fun h => hempty (List.append_eq_nil_iff.1 h).1⟩]
  rfl

theorem takeWhile_numbered (n : Nat) (rest : List Char) :
    (numbered n ++ rest).takeWhile Char.isDigit = [] := rfl

theorem merged_cons (count : Nat) (tail : List Char) (tails : List (List Char)) :
    merged count (tail :: tails) =
      (numbered (count + 1) ++ tail.takeWhile Char.isDigit) :: merged (count + 1) tails :=
  rfl

/-! ## Marks in a text -/

/-- The texts behind the placeholders of a text that stands after the characters `behind`, in a
style whose placeholders are a mark alone. Quoted text and comments hold no placeholder; they may be
left open at the end. -/
inductive Marks (style : Style) : Mode → Behind → List Char → List (List Char) → Prop
  | nil {mode : Mode} {behind : Behind} : Marks style mode behind [] []
  -- Outside
  | question {behind : Behind} {text : List Char} {tails : List (List Char)}
    (marks : style = .qmark) (rest : Marks style .outside (some '?', behind.1) text tails) :
    Marks style .outside behind ('?' :: text) (text :: tails)
  | value {behind : Behind} {text : List Char} {tails : List (List Char)}
    (marks : style = .format) (rest : Marks style .outside (some 's', some '%') text tails) :
    Marks style .outside behind ('%' :: 's' :: text) (text :: tails)
  | percent {behind : Behind} {text : List Char} {tails : List (List Char)}
    (marks : style = .format) (rest : Marks style .outside (some '%', some '%') text tails) :
    Marks style .outside behind ('%' :: '%' :: text) tails
  | plain {behind : Behind} {c : Char} {text : List Char} {tails : List (List Char)}
    (unquoted : c ≠ '\'' ∧ c ≠ '"') (dash : c = '-' → text.head? ≠ some '-')
    (unmarked : (style = .qmark → c ≠ '?') ∧ (style = .format → c ≠ '%'))
    (rest : Marks style .outside (some c, behind.1) text tails) :
    Marks style .outside behind (c :: text) tails
  | literal {behind : Behind} {text : List Char} {tails : List (List Char)}
    (opens : opensEscaped behind = false)
    (rest : Marks style .literal (some '\'', behind.1) text tails) :
    Marks style .outside behind ('\'' :: text) tails
  | escaped {behind : Behind} {text : List Char} {tails : List (List Char)}
    (opens : opensEscaped behind = true)
    (rest : Marks style .escaped (some '\'', behind.1) text tails) :
    Marks style .outside behind ('\'' :: text) tails
  | identifier {behind : Behind} {text : List Char} {tails : List (List Char)}
    (rest : Marks style .identifier (some '"', behind.1) text tails) :
    Marks style .outside behind ('"' :: text) tails
  | comment {behind : Behind} {text : List Char} {tails : List (List Char)}
    (rest : Marks style .comment (some '-', some '-') text tails) :
    Marks style .outside behind ('-' :: '-' :: text) tails
  -- In quotes
  | inside {mode : Mode} {behind : Behind} {quote c : Char} {text : List Char}
    {tails : List (List Char)} (quotes : mode.quote? = some quote) (stays : c ≠ quote)
    (last : mode = .escaped → c = '\\' → text = [])
    (rest : Marks style mode (some c, behind.1) text tails) :
    Marks style mode behind (c :: text) tails
  | backslash {behind : Behind} {c : Char} {text : List Char} {tails : List (List Char)}
    (rest : Marks style .escaped (some c, some '\\') text tails) :
    Marks style .escaped behind ('\\' :: c :: text) tails
  | doubled {mode : Mode} {behind : Behind} {quote : Char} {text : List Char}
    {tails : List (List Char)} (quotes : mode.quote? = some quote)
    (rest : Marks style mode (some quote, some quote) text tails) :
    Marks style mode behind (quote :: quote :: text) tails
  | closed {mode : Mode} {behind : Behind} {quote : Char} {text : List Char}
    {tails : List (List Char)} (quotes : mode.quote? = some quote)
    (single : text.head? ≠ some quote)
    (rest : Marks style .outside (some quote, behind.1) text tails) :
    Marks style mode behind (quote :: text) tails
  -- In a comment
  | commented {behind : Behind} {c : Char} {text : List Char} {tails : List (List Char)}
    (stays : c ≠ '\n') (rest : Marks style .comment (some c, behind.1) text tails) :
    Marks style .comment behind (c :: text) tails
  | newline {behind : Behind} {text : List Char} {tails : List (List Char)}
    (rest : Marks style .outside (some '\n', behind.1) text tails) :
    Marks style .comment behind ('\n' :: text) tails

/-- The texts behind the placeholders of a whole text. -/
def Marked (style : Style) (sql : List Char) (tails : List (List Char)) : Prop :=
  Marks style .outside (none, none) sql tails

/-- A text has its placeholders in one way only. -/
theorem Marks.unique {style : Style} {mode : Mode} {behind : Behind} {text : List Char}
    {tails tails' : List (List Char)} (h : Marks style mode behind text tails)
    (h' : Marks style mode behind text tails') : tails = tails' := by
  -- Two rules for one text have conditions that exclude each other.
  induction h generalizing tails' <;> cases h' <;> grind [Mode.quote?]

/-! ## One step of the scan -/

/-- The characters behind the text that a step leaves. -/
def Taken.behind (taken : Taken) (behind : Behind) (c : Char) (rest : List Char) : Behind :=
  if taken.pair then (rest.head?, some c) else (some c, behind.1)

/-- What a step takes is a placeholder, or plain text that begins with the character at hand. -/
inductive Taken.Marks (style : Style) (mode : Mode) (behind : Behind) (c : Char)
    (rest : List Char) (taken : Taken) : Prop
  | placeholder (pieces : taken.pieces = [.positional]) (next : taken.mode = .outside)
    (digit : c.isDigit = false)
    (marks : ∀ tails,
      Placeholder.Marks style .outside (taken.behind behind c rest) (taken.left rest) tails →
        Placeholder.Marks style mode behind (c :: rest) (taken.left rest :: tails))
  | plain (more : List Char) (pieces : taken.pieces = .plain c :: more.map .plain)
    (known : ∀ d ∈ more, rest.head? = some d) (prompt : taken.mode.Prompt)
    (digit : mode = .outside → c.isDigit = true → taken = .one (.plain c) .outside)
    (marks : ∀ tails,
      Placeholder.Marks style taken.mode (taken.behind behind c rest) (taken.left rest) tails →
        Placeholder.Marks style mode behind (c :: rest) tails)

section Steps

variable {style : Style} {mode next : Mode} {behind : Behind} {offset : Nat} {c d : Char}
  {rest : List Char} {taken : Taken}

theorem Taken.Marks.prompt (h : taken.Marks style mode behind c rest) : taken.mode.Prompt := by
  cases h with
  | placeholder _ next => exact next ▸ prompt_outside
  | plain _ _ _ prompt => exact prompt

/-- One character that is plain. -/
theorem marks_one (prompt : next.Prompt)
    (digit : mode = .outside → c.isDigit = true → next = .outside)
    (h : ∀ tails, Marks style next (some c, behind.1) rest tails →
      Marks style mode behind (c :: rest) tails) :
    Taken.Marks style mode behind c rest (.one (.plain c) next) := by
  refine .plain [] rfl (by simp) prompt (fun hmode hc => ?_) h
  rw [digit hmode hc]

/-- Two characters that are plain. -/
theorem marks_two (prompt : next.Prompt) (digit : mode = .outside → c.isDigit = false)
    (hd : rest.head? = some d)
    (h : ∀ text tails, rest = d :: text → Marks style next (some d, some c) text tails →
      Marks style mode behind (c :: d :: text) tails) :
    Taken.Marks style mode behind c rest (.two [.plain c, .plain d] next) := by
  have hrest := List.cons_head?_tail hd
  refine .plain [d] rfl (by simpa using hd) prompt (fun hmode hc => ?_) fun tails hmarks => ?_
  · rw [digit hmode] at hc
    cases hc
  · rw [← hrest]
    refine h _ _ hrest.symm ?_
    rw [← hd]
    exact hmarks

/-- Outside, at a percent sign. -/
theorem marks_percent (h : take .format behind offset '%' rest.head? .outside = .ok taken) :
    taken.Marks .format .outside behind '%' rest := by
  simp only [take, Char.reduceEq, reduceCtorEq, reduceIte, decide_false, decide_true,
    Bool.false_and, Bool.true_and, Bool.true_or, Bool.false_eq_true] at h
  split at h
  · rename_i hd
    cases h
    refine .plain [] rfl (by simp) prompt_outside (fun _ hc => absurd hc (by decide)) ?_
    intro tails hmarks
    rw [← List.cons_head?_tail hd]
    rw [Taken.behind, hd] at hmarks
    exact .percent rfl hmarks
  · rename_i hd
    cases h
    refine .placeholder rfl rfl (by decide) fun tails hmarks => ?_
    rw [← List.cons_head?_tail hd]
    rw [Taken.behind, hd] at hmarks
    exact .value rfl hmarks
  · cases h
  · cases h

/-- Outside, a character that these styles give no meaning. -/
theorem take_ordinary (hstyle : style = .qmark ∨ style = .format)
    (hquotes : c ≠ '\'' ∧ c ≠ '"') (hdash : c = '-' → rest.head? ≠ some '-')
    (hmarks : (style = .qmark → c ≠ '?') ∧ (style = .format → c ≠ '%')) :
    take style behind offset c rest.head? .outside = .ok (.one (.plain c) .outside) := by
  have hcomment : ¬ (c = '-' && rest.head? = some '-') = true := by
    simpa using hdash
  have hmark : ¬ (c = '?' && style = .qmark) = true := by
    simpa using fun hc hqmark => hmarks.1 hqmark hc
  have hpercent : ¬ (c = '%' && (style = .format || style = .pyformat)) = true := by
    obtain rfl | rfl := hstyle
    · simp
    · simpa using hmarks.2 rfl
  unfold take
  dsimp only
  rw [if_neg hquotes.1, if_neg hquotes.2, if_neg hcomment, if_neg hmark, if_neg hpercent]
  -- A colon means something to other styles only.
  obtain rfl | rfl := hstyle <;> split <;> rfl

/-- Outside, where placeholders stand. -/
theorem marks_outside (hstyle : style = .qmark ∨ style = .format)
    (h : take style behind offset c rest.head? .outside = .ok taken) :
    taken.Marks style .outside behind c rest := by
  by_cases hquote : c = '\''
  · subst hquote
    rw [take_opening] at h
    cases h
    refine marks_one ?_ (fun _ hc => absurd hc (by decide)) fun tails hmarks => ?_
    · split
      · exact prompt_quoted rfl
      · exact prompt_quoted rfl
    · split at hmarks
      · rename_i hopens
        exact .escaped hopens hmarks
      · rename_i hopens
        exact .literal (Bool.eq_false_iff.2 hopens) hmarks
  by_cases hdouble : c = '"'
  · subst hdouble
    cases h
    exact marks_one (prompt_quoted rfl) (fun _ hc => absurd hc (by decide)) fun tails => .identifier
  by_cases hdash : c = '-' ∧ rest.head? = some '-'
  · obtain ⟨rfl, hd⟩ := hdash
    rw [hd] at h
    cases h
    exact marks_two prompt_comment (fun _ => by decide) hd fun text tails _ => .comment
  by_cases hmark : style = .qmark ∧ c = '?'
  · obtain ⟨rfl, rfl⟩ := hmark
    cases h
    exact .placeholder rfl rfl (by decide) fun tails => .question rfl
  by_cases hpercent : style = .format ∧ c = '%'
  · obtain ⟨rfl, rfl⟩ := hpercent
    exact marks_percent h
  have hunquoted : c ≠ '\'' ∧ c ≠ '"' := ⟨hquote, hdouble⟩
  have hsingle : c = '-' → rest.head? ≠ some '-' := fun hc hd => hdash ⟨hc, hd⟩
  have hunmarked : (style = .qmark → c ≠ '?') ∧ (style = .format → c ≠ '%') :=
    ⟨fun hstyle hc => hmark ⟨hstyle, hc⟩, fun hstyle hc => hpercent ⟨hstyle, hc⟩⟩
  rw [take_ordinary hstyle hunquoted hsingle hunmarked] at h
  cases h
  exact marks_one prompt_outside (fun _ _ => rfl) fun tails => .plain hunquoted hsingle hunmarked

/-- In quotes, where nothing is a placeholder. -/
theorem marks_quoted {quote : Char} (hquote : mode.quote? = some quote)
    (h : take style behind offset c rest.head? mode = .ok taken) :
    taken.Marks style mode behind c rest := by
  have hmode := prompt_quoted hquote
  have hinside : mode ≠ .outside := by
    rintro rfl
    cases hquote
  by_cases hc : c = quote
  · rw [hc, take_quote hquote] at h
    cases h
    rw [hc]
    split
    · rename_i hd
      exact marks_two hmode (fun h => absurd h hinside) hd fun text tails _ => .doubled hquote
    · rename_i hd
      exact marks_one prompt_outside (fun _ _ => rfl) fun tails => .closed hquote hd
  by_cases hbackslash : mode = .escaped ∧ c = '\\'
  · obtain ⟨rfl, rfl⟩ := hbackslash
    unfold take at h
    dsimp only at h
    rw [if_pos rfl] at h
    split at h
    · rename_i d hd
      cases h
      exact marks_two hmode (fun h => absurd h hinside) hd fun text tails _ => .backslash
    · rename_i hd
      cases h
      refine marks_one hmode (fun h => absurd h hinside) fun tails => ?_
      exact .inside hquote hc fun _ _ => List.head?_eq_none_iff.1 hd
  · rw [take_quoted hquote hc fun hmode hc => hbackslash ⟨hmode, hc⟩] at h
    cases h
    refine marks_one hmode (fun h => absurd h hinside) fun tails => ?_
    exact .inside hquote hc fun hmode hc => absurd ⟨hmode, hc⟩ hbackslash

/-- In a comment, up to its end. -/
theorem marks_comment (h : take style behind offset c rest.head? .comment = .ok taken) :
    taken.Marks style .comment behind c rest := by
  rw [take] at h
  cases h
  split
  · rename_i hc
    rw [hc]
    exact marks_one prompt_outside (by simp) fun tails => .newline
  · rename_i hc
    exact marks_one prompt_comment (by simp) fun tails => .commented hc

end Steps

theorem marks_take {style : Style} {mode : Mode} {behind : Behind} {offset : Nat} {c : Char}
    {rest : List Char} {taken : Taken} (hstyle : style = .qmark ∨ style = .format)
    (hmode : mode.Prompt) (h : take style behind offset c rest.head? mode = .ok taken) :
    taken.Marks style mode behind c rest := by
  cases mode with
  | outside => exact marks_outside hstyle h
  | literal | identifier | escaped => exact marks_quoted rfl h
  | comment => exact marks_comment h
  | name | parens => exact absurd hmode.pending (List.cons_ne_nil _ _)

/-! ## A whole text -/

/-- What the pieces of a text that is left have to do with its placeholders. -/
structure Reads (style : Style) (mode : Mode) (behind : Behind) (text : List Char)
    (ps : List Piece) (tails : List (List Char)) : Prop where
  marks : Marks style mode behind text tails
  parameters (names : List (List Char)) (count : Nat) (undollared : '$' ∉ text) :
    Placeholder.parameters (filled names count ps) = merged count tails
  /-- The digits in front stay where they are. -/
  digits (outside : mode = .outside) (names : List (List Char)) (count : Nat) :
    (filled names count ps).takeWhile Char.isDigit = text.takeWhile Char.isDigit

/-- The rest of a text is read after a step, and so is the text before the step. -/
theorem Taken.Marks.reads {style : Style} {mode : Mode} {behind : Behind} {c : Char}
    {rest : List Char} {taken : Taken} {ps : List Piece} {tails : List (List Char)}
    (h : taken.Marks style mode behind c rest)
    (hrest : Reads style taken.mode (taken.behind behind c rest) (taken.left rest) ps tails) :
    ∃ tails, Reads style mode behind (c :: rest) (taken.pieces ++ ps) tails := by
  have hleft : '$' ∉ c :: rest → '$' ∉ taken.left rest := by
    intro hdollar hmem
    refine hdollar (List.mem_cons_of_mem _ ?_)
    unfold left at hmem
    split at hmem
    · exact List.mem_of_mem_tail hmem
    · exact hmem
  cases h with
  | placeholder pieces next digit marks =>
    rw [pieces]
    rw [next] at hrest
    refine ⟨_, marks _ hrest.marks, fun names count hdollar => ?_, fun _ names count => ?_⟩
    · show parameters (numbered (count + 1) ++ filled names (count + 1) ps) = _
      rw [parameters_numbered, hrest.parameters _ _ (hleft hdollar), hrest.digits rfl]
      rfl
    · show (numbered (count + 1) ++ filled names (count + 1) ps).takeWhile Char.isDigit = _
      rw [takeWhile_numbered, List.takeWhile_cons_of_neg (by rw [digit]; exact Bool.false_ne_true)]
  | plain more pieces known prompt digit marks =>
    have hfilled (names : List (List Char)) (count : Nat) :
        filled names count (taken.pieces ++ ps) = c :: more ++ filled names count ps := by
      rw [pieces]
      exact filled_plain names count (c :: more) ps
    refine ⟨_, marks _ hrest.marks, fun names count hdollar => ?_, fun hmode names count => ?_⟩
    · have hmore : '$' ∉ c :: more := by
        intro hmem
        obtain hc | hd := List.mem_cons.1 hmem
        · exact hdollar (hc ▸ List.mem_cons_self)
        · exact hdollar (List.mem_cons_of_mem _ (List.mem_of_mem_head? (known _ hd)))
      rw [hfilled, parameters_append hmore, hrest.parameters _ _ (hleft hdollar)]
    · rw [hfilled, List.cons_append]
      by_cases hc : c.isDigit = true
      · obtain rfl := digit hmode hc
        obtain rfl : more = [] := List.map_eq_nil_iff.1 (List.cons.inj pieces).2.symm
        rw [List.takeWhile_cons_of_pos hc, List.takeWhile_cons_of_pos hc, List.nil_append,
          hrest.digits rfl]
        rfl
      · rw [List.takeWhile_cons_of_neg hc, List.takeWhile_cons_of_neg hc]

/-- Nothing is found at the end of a text. -/
theorem reads_nil {style : Style} {mode : Mode} {behind behind' : Behind} {offset : Nat}
    {ps : List Piece} (h : scan style mode behind' offset [] = .ok ps) :
    Reads style mode behind [] ps [] := by
  have hnothing : ps = [] := by
    cases mode with
    | parens => cases h
    | _ =>
      cases h
      rfl
  rw [hnothing]
  exact ⟨.nil, fun _ _ _ => rfl, fun _ _ _ => rfl⟩

theorem reads_scan {style : Style} {mode : Mode} {behind : Behind} {offset : Nat}
    {text : List Char} {ps : List Piece} (hstyle : style = .qmark ∨ style = .format)
    (hmode : mode.Prompt) (h : scan style mode behind offset text = .ok ps) :
    ∃ tails, Reads style mode behind text ps tails := by
  induction mode, behind, offset, text using scan.induct generalizing ps with
  | case1 => cases h
  | case2 => exact ⟨[], reads_nil h⟩
  | case3 mode behind offset c =>
    rw [scan] at h
    obtain ⟨taken, htake, h⟩ := bind_eq_ok_iff.1 h
    obtain ⟨rest, hrest, h⟩ := bind_eq_ok_iff.1 h
    cases h
    have hstep : taken.Marks style mode behind c [] := marks_take hstyle hmode htake
    have hleft : taken.left [] = [] := by
      rw [Taken.left, List.tail_nil, ite_self]
    exact hstep.reads (hleft ▸ reads_nil hrest)
  | case4 mode behind offset c d others ihtwo ihone =>
    rw [scan] at h
    obtain ⟨taken, htake, h⟩ := bind_eq_ok_iff.1 h
    have hstep : taken.Marks style mode behind c (d :: others) := marks_take hstyle hmode htake
    have hreads (ps : List Piece) (tails : List (List Char)) :=
      @Taken.Marks.reads _ _ _ _ _ _ ps tails hstep
    unfold Taken.behind Taken.left at hreads
    by_cases pair : taken.pair = true
    · rw [if_pos pair] at h
      rw [if_pos pair, if_pos pair] at hreads
      obtain ⟨rest, hrest, h⟩ := bind_eq_ok_iff.1 h
      cases h
      obtain ⟨tails, htails⟩ := ihtwo taken hstep.prompt hrest
      exact hreads _ _ htails
    · rw [if_neg pair] at h
      rw [if_neg pair, if_neg pair] at hreads
      obtain ⟨rest, hrest, h⟩ := bind_eq_ok_iff.1 h
      cases h
      obtain ⟨tails, htails⟩ := ihone taken hstep.prompt hrest
      exact hreads _ _ htails

/-- Numbers are as they were given where no placeholder has a digit right behind it. -/
theorem merged_eq_iff {count : Nat} {tails : List (List Char)} :
    merged count tails = (List.range' (count + 1) tails.length).map numbered ↔
      ∀ tail ∈ tails, tail.head?.any Char.isDigit = false := by
  induction tails generalizing count with
  | nil => simp [merged]
  | cons tail tails ih =>
    have htail : tail.takeWhile Char.isDigit = [] ↔ tail.head?.any Char.isDigit = false := by
      cases tail with
      | nil => simp
      | cons c rest => cases hc : c.isDigit <;> simp [hc]
    rw [merged_cons, List.length_cons, List.range'_succ, List.map_cons, List.cons.injEq, ih,
      List.append_right_eq_self, htail, List.forall_mem_cons]

/-- For every text without a dollar sign that is converted from question marks or percent signs: its
placeholders are numbered from the left, each number goes on with the digits right behind its
placeholder, and so the parameters are those of the placeholders just where none has a digit right
behind it. -/
theorem parameters_numbered_iff {style : Style} (hstyle : style = .qmark ∨ style = .format)
    {sql text : String} {order : Order} (hdollar : '$' ∉ sql.toList)
    (h : convert style sql = .ok (text, order)) :
    ∃ tails, Marked style sql.toList tails ∧
      (∀ tails', Marked style sql.toList tails' → tails' = tails) ∧
      parameters text.toList = merged 0 tails ∧
      (parameters text.toList = (List.range' 1 tails.length).map numbered ↔
        ∀ tail ∈ tails, tail.head?.any Char.isDigit = false) := by
  rw [convert_eq] at h
  obtain ⟨ps, hpieces, h⟩ := bind_eq_ok_iff.1 h
  obtain ⟨-, h⟩ := when_eq_ok_iff.1 h
  cases h
  obtain ⟨tails, hreads⟩ := reads_scan hstyle prompt_outside hpieces
  have hparameters := hreads.parameters (names ps) 0 hdollar
  rw [String.toList_ofList]
  refine ⟨tails, hreads.marks, fun tails' h => h.unique hreads.marks, hparameters, ?_⟩
  rw [hparameters]
  exact merged_eq_iff

/-- A string, a cast, a comment, and a placeholder with a digit behind it. -/
theorem parameters_numbered_iff_cast :
    '$' ∉ "SELECT '%s', %s::int -- %s\n+ %s1".toList ∧
      convert .format "SELECT '%s', %s::int -- %s\n+ %s1" =
        .ok ("SELECT '%s', $1::int -- %s\n+ $21", .positional) ∧
      ∃ tails, Marked .format "SELECT '%s', %s::int -- %s\n+ %s1".toList tails ∧
        (∀ tails', Marked .format "SELECT '%s', %s::int -- %s\n+ %s1".toList tails' →
          tails' = tails) ∧
        parameters "SELECT '%s', $1::int -- %s\n+ $21".toList = merged 0 tails ∧
        (parameters "SELECT '%s', $1::int -- %s\n+ $21".toList =
            (List.range' 1 tails.length).map numbered ↔
          ∀ tail ∈ tails, tail.head?.any Char.isDigit = false) := by
  have hdollar : '$' ∉ "SELECT '%s', %s::int -- %s\n+ %s1".toList := by decide +kernel
  have hconvert : convert .format "SELECT '%s', %s::int -- %s\n+ %s1" =
      .ok ("SELECT '%s', $1::int -- %s\n+ $21", .positional) := by decide +kernel
  exact ⟨hdollar, hconvert, parameters_numbered_iff (.inr rfl) hdollar hconvert⟩

/-- Text without quotes, hyphens and marks holds no placeholder. -/
theorem Marks.ordinary {style : Style} {cs text : List Char} {tails : List (List Char)}
    (hcs : ∀ c ∈ cs, c ∉ ['\'', '"', '-', '?', '%'])
    (h : ∀ behind, Marks style .outside behind text tails) (behind : Behind) :
    Marks style .outside behind (cs ++ text) tails := by
  induction cs generalizing behind with
  | nil => exact h behind
  | cons c cs ih =>
    have hc := hcs c List.mem_cons_self
    simp only [List.mem_cons, List.not_mem_nil, or_false, not_or] at hc
    obtain ⟨hquote, hdouble, hdash, hquestion, hpercent⟩ := hc
    exact .plain ⟨hquote, hdouble⟩ (fun h => absurd h hdash) ⟨fun _ => hquestion, fun _ => hpercent⟩
      (ih (fun d hd => hcs d (List.mem_cons_of_mem _ hd)) _)

/-- The parameter of one placeholder is not the first one but the eleventh, since a digit comes
right behind it. -/
theorem parameter_merged :
    '$' ∉ "SELECT ?1".toList ∧ Marked .qmark "SELECT ?1".toList [['1']] ∧
      convert .qmark "SELECT ?1" = .ok ("SELECT $11", .positional) ∧
      parameters "SELECT $11".toList = [numbered 11] ∧
      [numbered 11] ≠ (List.range' 1 1).map numbered := by
  refine ⟨by decide +kernel, ?_, by decide +kernel, by decide +kernel, by decide +kernel⟩
  show Marks .qmark .outside _ ("SELECT ".toList ++ "?1".toList) _
  refine .ordinary (by simp) (fun _ => ?_) _
  exact .question rfl (.plain (by decide) (by decide) (by decide) .nil)

end PgClient.Placeholder
