/-
  PgClient.Proofs.Placeholder.Scan

  What the scan of a template makes of quoted text, comments and placeholders.
  Each lemma takes one of them from the front of a text and leaves the pieces of
  the rest to a hypothesis, so that they can be put together in any order.
-/
import PgClient.Placeholder.Template

namespace PgClient.Placeholder

/-! ## Quoting -/

/-- A text in which a quote is doubled. -/
def doubled (quote : Char) (text : List Char) : List Char :=
  text.flatMap fun c => if c = quote then [c, c] else [c]

/-- A text in which quotes and backslashes have a backslash before them. -/
def backslashed (text : List Char) : List Char :=
  text.flatMap fun c => if c = '\'' ∨ c = '\\' then ['\\', c] else [c]

/-- The quote that ends a mode. -/
def Mode.quote? : Mode → Option Char
  | .literal | .escaped => some '\''
  | .identifier => some '"'
  | _ => none

/-! ## One step -/

section Steps

variable {style : Style} {mode : Mode} {behind : Behind} {offset : Nat} {c d quote : Char}
  {next : Option Char} {rest : List Char} {ps : List Piece}

theorem scan_one (taken : Taken) (htake : take style behind offset c rest.head? mode = .ok taken)
    (hone : taken.pair = false)
    (h : scan style taken.mode (some c, behind.1) (offset + 1) rest = .ok ps) :
    scan style mode behind offset (c :: rest) = .ok (taken.pieces ++ ps) := by
  cases rest with
  | nil =>
    rw [scan, show take style behind offset c none mode = .ok taken from htake]
    show (scan style taken.mode _ _ [] >>= _) = _
    rw [h]
    rfl
  | cons d rest =>
    rw [scan, show take style behind offset c (some d) mode = .ok taken from htake]
    show (if taken.pair = true then _ else _) = _
    rw [hone, if_neg Bool.false_ne_true, h]
    rfl

theorem scan_two (taken : Taken) (htake : take style behind offset c (some d) mode = .ok taken)
    (htwo : taken.pair = true)
    (h : scan style taken.mode (some d, some c) (offset + 2) rest = .ok ps) :
    scan style mode behind offset (c :: d :: rest) = .ok (taken.pieces ++ ps) := by
  rw [scan, htake]
  show (if taken.pair = true then _ else _) = _
  rw [htwo, if_pos rfl, h]
  rfl

/-- Outside, a character that means nothing. -/
theorem take_plain (hc : c ∉ ['\'', '"', '?', ':']) (hdash : c = '-' → next ≠ some '-')
    (hpercent : c = '%' → style ≠ .format ∧ style ≠ .pyformat) :
    take style behind offset c next .outside = .ok (.one (.plain c) .outside) := by
  simp only [List.mem_cons, List.not_mem_nil, or_false, not_or] at hc
  obtain ⟨hquote, hdouble, hmark, hcolon⟩ := hc
  have hcomment : ¬ (c = '-' && next = some '-') = true := by
    rw [Bool.and_eq_true, decide_eq_true_eq, decide_eq_true_eq]
    exact fun h => hdash h.1 h.2
  have hformat : ¬ (c = '%' && (style = .format || style = .pyformat)) = true := by
    rw [Bool.and_eq_true, Bool.or_eq_true, decide_eq_true_eq, decide_eq_true_eq,
      decide_eq_true_eq]
    rintro ⟨hc, h | h⟩
    · exact (hpercent hc).1 h
    · exact (hpercent hc).2 h
  simp only [take, if_neg hquote, if_neg hdouble, if_neg hcomment, hmark, hcolon, decide_false,
    Bool.false_and, Bool.false_eq_true, if_false, if_neg hformat]

/-- A colon before a digit, after anything but a colon. -/
theorem take_number (hlast : behind.1 ≠ some ':') (hd : d.isDigit = true) :
    take .numeric behind offset ':' (some d) .outside = .ok (.one (.plain '$') .outside) := by
  simp [take, hlast, hd]

/-- A colon before a name, after anything but a colon. -/
theorem take_name (hlast : behind.1 ≠ some ':') (hd : beginsName d = true) :
    take .named behind offset ':' (some d) .outside = .ok (.silent (.name [])) := by
  simp [take, hlast, hd]

theorem take_opening : take style behind offset '\'' next .outside =
    .ok (.one (.plain '\'') (if opensEscaped behind then .escaped else .literal)) := rfl

/-- The quote that ends a mode stays in it if it is doubled. -/
theorem take_quote (hquote : mode.quote? = some quote) (behind : Behind) (offset : Nat)
    (next : Option Char) :
    take style behind offset quote next mode =
      .ok (if next = some quote then .two [.plain quote, .plain quote] mode
        else .one (.plain quote) .outside) := by
  cases mode with
  | literal | identifier | escaped =>
    cases hquote
    rfl
  | outside | comment | name | parens => cases hquote

/-- Any other character stays in it, but a backslash may take the next one with it. -/
theorem take_quoted (hquote : mode.quote? = some quote) (hc : c ≠ quote)
    (hbackslash : mode = .escaped → c ≠ '\\') (behind : Behind) (offset : Nat)
    (next : Option Char) :
    take style behind offset c next mode = .ok (.one (.plain c) mode) := by
  cases mode with
  | literal | identifier =>
    cases hquote
    exact if_neg hc
  | escaped =>
    cases hquote
    exact (if_neg (hbackslash rfl)).trans (if_neg hc)
  | outside | comment | name | parens => cases hquote

end Steps

/-! ## Inside -/

/-- In some mode the rest of a text gives these pieces, wherever it stands. -/
def Yields (style : Style) (mode : Mode) (text : List Char) (ps : List Piece) : Prop :=
  ∀ behind offset, scan style mode behind offset text = .ok ps

/-- Outside the rest of a text gives these pieces after some character. -/
def Gives (style : Style) (last : Option Char) (text : List Char) (ps : List Piece) : Prop :=
  ∀ before offset, scan style .outside (last, before) offset text = .ok ps

/-- A text is plain in some mode and does not end it. -/
def Passes (style : Style) (mode : Mode) (text : List Char) : Prop :=
  ∀ rest ps, Yields style mode rest ps → Yields style mode (text ++ rest) (text.map .plain ++ ps)

section Inside

variable {style : Style} {mode : Mode} {c quote : Char} {last : Option Char}
  {text rest : List Char} {ps : List Piece}

theorem Passes.nil : Passes style mode [] := fun _ _ h => h

theorem Passes.append {text' : List Char} (h : Passes style mode text)
    (h' : Passes style mode text') : Passes style mode (text ++ text') := by
  intro rest ps hrest
  have hall := h _ _ (h' _ _ hrest)
  rwa [← List.append_assoc, ← List.append_assoc, ← List.map_append] at hall

/-- Text passes if all of it does, character by character. -/
theorem Passes.flatMap {unit : Char → List Char} (h : ∀ c ∈ text, Passes style mode (unit c)) :
    Passes style mode (text.flatMap unit) := by
  induction text with
  | nil => exact .nil
  | cons c text ih =>
    rw [List.flatMap_cons]
    exact .append (h c List.mem_cons_self) (ih fun d hd => h d (List.mem_cons_of_mem _ hd))

/-- A character that is taken for itself passes. -/
theorem Passes.one (h : ∀ behind offset next,
    take style behind offset c next mode = .ok (.one (.plain c) mode)) : Passes style mode [c] :=
  fun _ _ hrest behind offset => scan_one _ (h behind offset _) rfl (hrest _ _)

/-- Two characters that are taken together pass. -/
theorem Passes.two {d : Char} (h : ∀ behind offset,
    take style behind offset c (some d) mode = .ok (.two [.plain c, .plain d] mode)) :
    Passes style mode [c, d] :=
  fun _ _ hrest behind offset => scan_two _ (h behind offset) rfl (hrest _ _)

/-- In quotes without escapes any text passes if its quotes are doubled. -/
theorem passes_doubled (hquote : mode.quote? = some quote) (hescaped : mode ≠ .escaped)
    (text : List Char) : Passes style mode (doubled quote text) := by
  refine .flatMap fun c _ => ?_
  by_cases hc : c = quote
  · rw [if_pos hc, hc]
    refine .two fun behind offset => ?_
    rw [take_quote hquote, if_pos rfl]
  · rw [if_neg hc]
    exact .one (take_quoted hquote hc fun h => absurd h hescaped)

/-- With escapes it passes if quotes and backslashes have a backslash before them. -/
theorem passes_backslashed (text : List Char) : Passes style .escaped (backslashed text) := by
  refine .flatMap fun c _ => ?_
  by_cases hc : c = '\'' ∨ c = '\\'
  · rw [if_pos hc]
    exact .two fun behind offset => rfl
  · rw [if_neg hc]
    obtain ⟨hquote, hbackslash⟩ := not_or.1 hc
    exact .one (take_quoted rfl hquote fun _ => hbackslash)

/-- A quote that is not doubled ends the mode. -/
theorem yields_quote (hquote : mode.quote? = some quote) (hnext : rest.head? ≠ some quote)
    (h : Gives style (some quote) rest ps) :
    Yields style mode (quote :: rest) (.plain quote :: ps) := by
  intro behind offset
  refine scan_one (.one (.plain quote) .outside) ?_ rfl (h _ _)
  rw [take_quote hquote, if_neg hnext]

/-- Text that passes and the quote after it. -/
theorem Passes.closed (h : Passes style mode text) (hquote : mode.quote? = some quote)
    (hnext : rest.head? ≠ some quote) (hrest : Gives style (some quote) rest ps) :
    Yields style mode (text ++ [quote] ++ rest) ((text ++ [quote]).map .plain ++ ps) := by
  rw [List.append_assoc, List.map_append, List.append_assoc]
  exact h _ _ (yields_quote hquote hnext hrest)

/-- In a comment everything passes up to the end of the line. -/
theorem yields_comment (htext : '\n' ∉ text) (h : Gives style (some '\n') rest ps) :
    Yields style .comment (text ++ ['\n'] ++ rest) ((text ++ ['\n']).map .plain ++ ps) := by
  have hpasses : Passes style .comment (text.flatMap fun c => [c]) := by
    refine .flatMap fun c hc => .one fun behind offset next => ?_
    rw [take, if_neg (ne_of_mem_of_not_mem hc htext)]
  rw [List.flatMap_singleton'] at hpasses
  rw [List.append_assoc, List.map_append, List.append_assoc]
  refine hpasses _ _ fun behind offset => ?_
  exact scan_one (.one (.plain '\n') .outside) rfl rfl (h _ _)

/-- A name goes on to the first character that is not of an identifier. -/
theorem yields_name {c : Char} (read : List Char) (htext : ∀ d ∈ text, isIdent d = true)
    (hnext : rest.head?.any isIdent = false)
    (h : Gives style ((c :: text).getLast?) rest ps) :
    Yields style (.name read) (c :: (text ++ rest)) (.named (read.reverse ++ c :: text) :: ps) := by
  intro behind offset
  induction text generalizing c read behind offset with
  | nil =>
    rw [← List.reverse_cons]
    refine scan_one (.one (.named (c :: read).reverse) .outside) ?_ rfl (h _ _)
    rw [List.nil_append, take, hnext, if_neg Bool.false_ne_true]
  | cons d text ih =>
    have hname := ih (c :: read) (fun e he => htext e (List.mem_cons_of_mem _ he)) h
    rw [List.reverse_cons, List.append_assoc] at hname
    refine scan_one (.silent (.name (c :: read))) ?_ rfl (hname _ _)
    rw [take, show ((d :: text ++ rest).head?.any isIdent) = true from htext d List.mem_cons_self,
      if_pos rfl]

/-- A name in parentheses goes on to the closing one. -/
theorem yields_parens (start : Nat) (read : List Char) (htext : ')' ∉ text)
    (h : Gives style (some 's') rest ps) :
    Yields style (.parens start read) (text ++ ')' :: 's' :: rest)
      (.named (read.reverse ++ text) :: ps) := by
  intro behind offset
  induction text generalizing read behind offset with
  | nil =>
    rw [List.append_nil]
    exact scan_two (.two [.named read.reverse] .outside) rfl rfl (h _ _)
  | cons c text ih =>
    have hname := ih (c :: read) (fun h => htext (List.mem_cons_of_mem _ h))
    rw [List.reverse_cons, List.append_assoc] at hname
    refine scan_one (.silent (.parens start (c :: read))) ?_ rfl (hname _ _)
    rw [take, if_neg (ne_of_mem_of_not_mem List.mem_cons_self htext)]

end Inside

/-! ## Outside -/

section Outside

variable {style : Style} {c : Char} {last : Option Char} {text rest : List Char}
  {ps : List Piece}

/-- A character that means nothing. -/
theorem gives_plain (hc : c ∉ ['\'', '"', '?', ':']) (hdash : c = '-' → rest.head? ≠ some '-')
    (hpercent : c = '%' → style ≠ .format ∧ style ≠ .pyformat)
    (h : Gives style (some c) rest ps) : Gives style last (c :: rest) (.plain c :: ps) :=
  fun _ _ => scan_one _ (take_plain hc hdash hpercent) rfl (h _ _)

/-- A hyphen before a comment is its first one, and one of the comment's hyphens its text. -/
theorem gives_dash (h : Gives style (some '-') ('-' :: '-' :: rest) ps) :
    Gives style last ('-' :: '-' :: '-' :: rest) (.plain '-' :: ps) := by
  intro before offset
  have htake {behind : Behind} {offset : Nat} : take style behind offset '-' (some '-') .outside =
      .ok (.two [.plain '-', .plain '-'] .comment) := rfl
  have hcomment : (scan style .comment (some '-', some '-') (offset + 3) rest >>= fun qs =>
      pure ([.plain '-', .plain '-'] ++ qs)) = .ok ps := by
    rw [← h last (offset + 1), scan, htake]
    rfl
  cases hrest : scan style .comment (some '-', some '-') (offset + 3) rest with
  | error e =>
    rw [hrest] at hcomment
    cases hcomment
  | ok qs =>
    rw [hrest] at hcomment
    cases hcomment
    exact scan_two _ htake rfl
      (scan_one (.one (.plain '-') .comment) rfl rfl hrest)

/-- A quote opens a literal, unless it has an E before it. -/
theorem gives_literal (hlast : last ≠ some 'E' ∧ last ≠ some 'e')
    (h : Yields style .literal rest ps) : Gives style last ('\'' :: rest) (.plain '\'' :: ps) := by
  intro before offset
  refine scan_one (.one (.plain '\'') .literal) ?_ rfl (h _ _)
  have hopens : opensEscaped (last, before) = false := by
    unfold opensEscaped
    split
    · rename_i heq
      exact absurd (Prod.mk.inj heq).1 hlast.1
    · rename_i heq
      exact absurd (Prod.mk.inj heq).1 hlast.2
    · rfl
  rw [take_opening, hopens, if_neg Bool.false_ne_true]

theorem gives_identifier (h : Yields style .identifier rest ps) :
    Gives style last ('"' :: rest) (.plain '"' :: ps) :=
  fun _ _ => scan_one (.one (.plain '"') .identifier) rfl rfl (h _ _)

/-- An E opens an escaped literal with its quote, unless it ends an identifier. -/
theorem gives_escaped (hlast : last.any isIdent = false) (h : Yields style .escaped rest ps) :
    Gives style last ('E' :: '\'' :: rest) (.plain 'E' :: .plain '\'' :: ps) := by
  intro before offset
  have hE : take style (last, before) offset 'E' (some '\'') .outside =
      .ok (.one (.plain 'E') .outside) := rfl
  have hquote : take style (some 'E', last) (offset + 1) '\'' rest.head? .outside =
      .ok (.one (.plain '\'') .escaped) := by
    rw [take_opening, show opensEscaped (some 'E', last) = !last.any isIdent from rfl, hlast,
      Bool.not_false, if_pos rfl]
  exact scan_one _ hE rfl (scan_one _ hquote rfl (h _ _))

theorem gives_comment (h : Yields style .comment rest ps) :
    Gives style last ('-' :: '-' :: rest) (.plain '-' :: .plain '-' :: ps) :=
  fun _ _ => scan_two (.two [.plain '-', .plain '-'] .comment) rfl rfl (h _ _)

end Outside

/-! ## Placeholders -/

/-- A name that may stand after a colon. -/
def IsName : List Char → Prop
  | [] => False
  | c :: text => beginsName c = true ∧ text.all isIdent = true

instance : DecidablePred IsName
  | [] => .isFalse id
  | c :: text => inferInstanceAs (Decidable (beginsName c = true ∧ text.all isIdent = true))

/-- The placeholder of a parameter with this number and this name. -/
def Style.placeholder (style : Style) (n : Nat) (name : List Char) : List Char :=
  match style with
  | .qmark => ['?']
  | .numeric => ':' :: Integer.natural n
  | .named => ':' :: name
  | .format => ['%', 's']
  | .pyformat => '%' :: '(' :: (name ++ [')', 's'])

/-- What the scan makes of it. -/
def Style.marked (style : Style) (n : Nat) (name : List Char) : List Piece :=
  match style with
  | .qmark | .format => [.positional]
  | .numeric => (numbered n).map .plain
  | .named | .pyformat => [.named name]

section Placeholders

variable {style : Style} {last : Option Char} {n : Nat} {name text rest : List Char}
  {ps : List Piece}

theorem IsName.ne_nil (h : IsName name) : name ≠ [] := by
  rintro rfl
  exact h

/-- A name has no character that is special to a placeholder. -/
theorem IsName.not_mem {c : Char} (h : IsName name) (hbegin : beginsName c = false)
    (hident : isIdent c = false) : c ∉ name := by
  cases name with
  | nil => exact List.not_mem_nil
  | cons d text =>
    rw [List.mem_cons, not_or]
    refine ⟨?_, fun hc => ?_⟩
    · rintro rfl
      rw [h.1] at hbegin
      cases hbegin
    · rw [List.all_eq_true.1 h.2 c hc] at hident
      cases hident

/-- Outside, digits are plain. -/
theorem gives_digits (htext : ∀ c ∈ text, c.isDigit = true) (hempty : text ≠ [])
    (h : ∀ c, c ≠ ':' → Gives style (some c) rest ps) :
    Gives style last (text ++ rest) (text.map .plain ++ ps) := by
  induction text generalizing last with
  | nil => exact absurd rfl hempty
  | cons c text ih =>
    have hc : c.isDigit = true := htext c List.mem_cons_self
    have hother {d : Char} (hd : d.isDigit = false) : c ≠ d := by
      rintro rfl
      rw [hc] at hd
      cases hd
    have hspecial : c ∉ ['\'', '"', '?', ':'] := by
      simp only [List.mem_cons, List.not_mem_nil, or_false, not_or]
      exact ⟨hother rfl, hother rfl, hother rfl, hother rfl⟩
    refine gives_plain hspecial (fun hdash => absurd hdash (hother rfl))
      (fun hpercent => absurd hpercent (hother rfl)) ?_
    by_cases htail : text = []
    · rw [htail]
      exact h c (hother rfl)
    · exact ih (fun d hd => htext d (List.mem_cons_of_mem _ hd)) htail

/-- A placeholder is taken for what its style makes of it. -/
theorem gives_placeholder (hlast : last ≠ some ':') (hname : IsName name)
    (hnext : rest.head?.any isIdent = false)
    (h : ∀ c, c ≠ ':' → Gives style (some c) rest ps) :
    Gives style last (style.placeholder n name ++ rest) (style.marked n name ++ ps) := by
  cases style with
  | qmark =>
    intro before offset
    exact scan_one (.one .positional .outside) rfl rfl (h '?' (by decide) _ _)
  | numeric =>
    have hdigits : ∀ c ∈ Integer.natural n, c.isDigit = true :=
      fun c hc => Nat.isDigit_of_mem_toDigits (by decide) (by decide) hc
    have hrest : Gives .numeric (some ':') (Integer.natural n ++ rest)
        ((Integer.natural n).map .plain ++ ps) := gives_digits hdigits Nat.toDigits_ne_nil h
    obtain ⟨d, digits, hnatural⟩ := List.exists_cons_of_ne_nil
      (show Integer.natural n ≠ [] from Nat.toDigits_ne_nil)
    rw [hnatural] at hdigits hrest
    intro before offset
    rw [Style.placeholder, Style.marked, numbered, hnatural]
    refine scan_one (.one (.plain '$') .outside) ?_ rfl (hrest _ _)
    exact take_number hlast (hdigits d List.mem_cons_self)
  | named =>
    obtain ⟨c, text, rfl⟩ := List.exists_cons_of_ne_nil hname.ne_nil
    have hend := List.getLast_mem (List.cons_ne_nil c text)
    have hcolon : (c :: text).getLast _ ≠ ':' :=
      ne_of_mem_of_not_mem hend (hname.not_mem (by decide) (by decide))
    have hrest := yields_name [] (List.all_eq_true.1 hname.2) hnext
      (List.getLast?_eq_some_getLast _ ▸ h _ hcolon)
    intro before offset
    exact scan_one (.silent (.name [])) (take_name hlast hname.1) rfl (hrest _ _)
  | format =>
    intro before offset
    exact scan_two (.two [.positional] .outside) rfl rfl (h 's' (by decide) _ _)
  | pyformat =>
    intro before offset
    have hrest := yields_parens offset [] (hname.not_mem (c := ')') (by decide) (by decide))
      (h 's' (by decide))
    rw [show Style.placeholder .pyformat n name ++ rest =
      '%' :: '(' :: (name ++ ')' :: 's' :: rest) by simp [Style.placeholder]]
    exact scan_two (.two [] (.parens offset [])) rfl rfl (hrest _ _)

end Placeholders

end PgClient.Placeholder
