/-
  PgClient.Proofs.Placeholder.Stability

  Conversion from the numeric style, place by place. It puts a dollar sign for
  some colons and leaves all else as it is, so that converted text is made of the
  same literals, identifiers and comments, and has no colon left to change.

  The scan decides with a look ahead, and takes some characters in pairs. Here
  each place of a text is described by what is in front of it alone, and the scan
  is shown to go by that description.
-/
import Mathlib.Data.List.Induction
import PgClient.Proofs.Placeholder.Numbering
import PgClient.Proofs.Placeholder.Scan

namespace PgClient.Placeholder

/-! ## Places of a text -/

/-- What a place is in. -/
inductive Region where
  | outside
  /-- A literal in single quotes. -/
  | literal
  /-- An identifier in double quotes. -/
  | identifier
  /-- A literal with backslash escapes. -/
  | escaped
  /-- The same, right after a backslash. -/
  | backslash
  /-- Right after a quote in such a literal, which goes on if another quote follows. -/
  | quote
  /-- A comment up to the end of the line. -/
  | comment
  deriving DecidableEq, Repr

namespace Region

/-- Neither in quotes nor in a comment. -/
def isPlain : Region → Bool
  | .outside | .quote => true
  | _ => false

/-- What a character leads to from outside. -/
def opened (behind : Behind) (c : Char) : Region :=
  if c = '\'' then (if opensEscaped behind then .escaped else .literal)
  else if c = '"' then .identifier
  else if c = '-' ∧ behind.1 = some '-' then .comment
  else .outside

/-- What a character leads to. Where quotes have no escapes, a doubled quote ends a literal and
begins one again. -/
def next (behind : Behind) (c : Char) : Region → Region
  | .outside => opened behind c
  | .literal => if c = '\'' then .outside else .literal
  | .identifier => if c = '"' then .outside else .identifier
  | .escaped => if c = '\\' then .backslash else if c = '\'' then .quote else .escaped
  | .backslash => .escaped
  | .quote => if c = '\'' then .escaped else opened behind c
  | .comment => if c = '\n' then .outside else .comment

end Region

/-- A place of a text, as the text in front of it makes it. -/
structure Place where
  region : Region := .outside
  behind : Behind := (none, none)
  deriving DecidableEq, Repr

namespace Place

/-- The place after one more character. -/
def read (p : Place) (c : Char) : Place := ⟨p.region.next p.behind c, (some c, p.behind.1)⟩

/-- The place after a text. -/
def after (text : List Char) : Place := text.foldl read {}

/-- A colon that marks a parameter: neither in quotes nor in a comment, next to no other colon
and before a digit. -/
def marks (p : Place) (c : Char) (next : Option Char) : Bool :=
  c = ':' && p.region.isPlain && p.behind.1 ≠ some ':' && next.any Char.isDigit

/-- What is written for a character. -/
def write (p : Place) (c : Char) (next : Option Char) : Char := if p.marks c next then '$' else c

end Place

/-- A text with a dollar sign for each colon that marks a parameter. -/
def dollared (p : Place) : List Char → List Char
  | [] => []
  | c :: rest => p.write c rest.head? :: dollared (p.read c) rest

/-- The character at some place of a text is a colon that marks a parameter. -/
def MarksAt (text : List Char) (i : Nat) : Prop :=
  text[i]? = some ':' ∧ (Place.after (text.take i)).region.isPlain = true ∧
    (text.take i).getLast? ≠ some ':' ∧ text[i + 1]?.any Char.isDigit = true

instance (text : List Char) (i : Nat) : Decidable (MarksAt text i) := by
  unfold MarksAt; infer_instance

section Lemmas

variable {p q : Place} {c d : Char} {next : Option Char} {text rest : List Char}

theorem Place.marks_eq_true_iff : p.marks c next = true ↔
    c = ':' ∧ p.region.isPlain = true ∧ p.behind.1 ≠ some ':' ∧ next.any Char.isDigit = true := by
  simp [Place.marks, and_assoc]

/-- Only a colon is not written as it is. -/
theorem Place.write_of_ne (h : c ≠ ':') : p.write c next = c :=
  if_neg fun hmarks => h (Place.marks_eq_true_iff.1 hmarks).1

/-- Nor is one that is in quotes or in a comment. -/
theorem Place.write_inside (h : p.region.isPlain = false) : p.write c next = c := by
  refine if_neg fun hmarks => ?_
  rw [(Place.marks_eq_true_iff.1 hmarks).2.1] at h
  cases h

end Lemmas

/-! ## What the scan is in -/

/-- The scan is in a mode at a place, given the character that it comes to next. It has left an
escaped literal, or taken a dash for a plain one, only after a look at that character. -/
def Mode.Reads (mode : Mode) (p : Place) (next : Option Char) : Prop :=
  match mode with
  | .outside =>
    (p.region = .outside ∨ p.region = .quote ∧ next ≠ some '\'') ∧
      (p.behind.1 = some '-' → next ≠ some '-')
  | .literal => p.region = .literal
  | .identifier => p.region = .identifier
  | .escaped => p.region = .escaped ∨ p.region = .backslash ∧ next = none
  | .comment => p.region = .comment
  | .name _ | .parens _ _ => False

/-- One step of the scan takes one character or two, and writes what stands for them. -/
inductive Follows (p : Place) (c : Char) (next : Option Char) : Taken → Prop where
  | one {written : Char} {mode : Mode} (hwrite : p.write c next = written)
      (reads : mode.Reads (p.read c) next) : Follows p c next (.one (.plain written) mode)
  | two {d : Char} {mode : Mode} (hnext : next = some d) (first : p.write c next = c)
      (second : ∀ next', (p.read c).write d next' = d)
      (reads : ∀ next', mode.Reads ((p.read c).read d) next') :
      Follows p c next (.two [.plain c, .plain d] mode)

section Steps

variable {p : Place} {c : Char} {next : Option Char} {mode : Mode}

/-- Outside, a character leads to what it opens. -/
theorem Mode.Reads.opened (h : Mode.outside.Reads p (some c)) :
    (p.read c).region = Region.opened p.behind c ∧ p.region.isPlain = true := by
  obtain ⟨hregion | ⟨hregion, hquote⟩, -⟩ := h
  · exact ⟨by rw [Place.read, hregion]; rfl, by rw [hregion]; rfl⟩
  · refine ⟨?_, by rw [hregion]; rfl⟩
    have hc : c ≠ '\'' := fun hc => hquote (congrArg some hc)
    rw [Place.read, hregion]
    exact if_neg hc

/-- In quotes: the quote ends the mode unless it is doubled, and other characters stay in it. -/
theorem Mode.Reads.quoted {quote : Char} (hquote : mode.quote? = some quote)
    (h : mode.Reads p (some c)) :
    p.region.isPlain = false ∧ quote ≠ ':' ∧
      (∀ next, next ≠ some quote → Mode.outside.Reads (p.read quote) next) ∧
      (∀ next, mode.Reads ((p.read quote).read quote) next) ∧
      (c ≠ quote → (mode = .escaped → c ≠ '\\') → ∀ next, mode.Reads (p.read c) next) := by
  have hdash {next : Option Char} (hc : quote ≠ '-') :
      (p.read quote).behind.1 = some '-' → next ≠ some '-' :=
    fun hlast => absurd (Option.some.inj hlast) hc
  cases mode with
  | literal | identifier =>
    have hregion : p.region = _ := h
    have hread : (p.read quote).region = .outside := by
      cases hquote
      rw [Place.read, hregion]
      rfl
    refine ⟨by rw [hregion]; rfl, by cases hquote; decide,
      fun _ _ => ⟨.inl hread, hdash (by cases hquote; decide)⟩, fun _ => ?_, fun hc _ _ => ?_⟩
    · show ((p.read quote).read quote).region = _
      rw [Place.read, hread]
      cases hquote
      rfl
    · show (p.read c).region = _
      rw [Place.read, hregion]
      cases hquote
      exact if_neg hc
  | escaped =>
    cases hquote
    have hregion : p.region = .escaped := h.resolve_right fun hend => nomatch hend.2
    have hread : (p.read '\'').region = .quote := by rw [Place.read, hregion]; rfl
    refine ⟨by rw [hregion]; rfl, by decide,
      fun _ hnext => ⟨.inr ⟨hread, hnext⟩, hdash (by decide)⟩, fun _ => .inl ?_,
      fun hc hbackslash _ => .inl ?_⟩
    · rw [Place.read, hread]
      rfl
    · rw [Place.read, hregion]
      exact (if_neg (hbackslash rfl)).trans (if_neg hc)
  | outside | comment | name | parens => cases hquote

theorem follows_quoted {quote : Char} (offset : Nat) (hquote : mode.quote? = some quote)
    (hbackslash : mode = .escaped → c ≠ '\\') (h : mode.Reads p (some c)) :
    ∃ taken, take .numeric p.behind offset c next mode = .ok taken ∧ Follows p c next taken := by
  obtain ⟨hinside, hcolon, hends, hagain, hstays⟩ := h.quoted hquote
  have hwrite : p.write c next = c := Place.write_inside hinside
  by_cases hc : c = quote
  · subst hc
    refine ⟨_, take_quote hquote _ _ _, ?_⟩
    by_cases hnext : next = some c
    · rw [if_pos hnext]
      exact .two hnext hwrite (fun _ => Place.write_of_ne hcolon) hagain
    · rw [if_neg hnext]
      exact .one hwrite (hends next hnext)
  · exact ⟨_, take_quoted hquote hc hbackslash _ _ _, .one hwrite (hstays hc hbackslash _)⟩

/-- A backslash takes the next character with it. -/
theorem follows_backslash (offset : Nat) (h : Mode.escaped.Reads p (some '\\')) :
    ∃ taken, take .numeric p.behind offset '\\' next .escaped = .ok taken ∧
      Follows p '\\' next taken := by
  have hregion : p.region = .escaped := h.resolve_right fun hend => nomatch hend.2
  have hread : (p.read '\\').region = .backslash := by rw [Place.read, hregion]; rfl
  have hwrite : p.write '\\' next = '\\' := Place.write_of_ne (by decide)
  cases next with
  | none => exact ⟨_, rfl, .one hwrite (.inr ⟨hread, rfl⟩)⟩
  | some d =>
    refine ⟨_, rfl, .two rfl hwrite (fun _ => Place.write_inside (by rw [hread]; rfl))
      fun _ => .inl ?_⟩
    rw [Place.read, hread]
    rfl

theorem follows_comment (offset : Nat) (h : Mode.comment.Reads p (some c)) :
    ∃ taken, take .numeric p.behind offset c next .comment = .ok taken ∧
      Follows p c next taken := by
  have hregion : p.region = .comment := h
  have hread : (p.read c).region = if c = '\n' then .outside else .comment := by
    rw [Place.read, hregion]
    rfl
  refine ⟨_, rfl, .one (Place.write_inside (by rw [hregion]; rfl)) ?_⟩
  by_cases hc : c = '\n'
  · rw [if_pos hc] at hread ⊢
    refine ⟨.inl hread, fun hlast => ?_⟩
    rw [Option.some.inj hlast] at hc
    cases hc
  · rw [if_neg hc] at hread ⊢
    exact hread

/-- Outside, the one character that is not written as it is is a colon that marks a parameter. -/
theorem take_colon (offset : Nat) (h : Mode.outside.Reads p (some ':')) :
    take .numeric p.behind offset ':' next .outside =
      .ok (.one (.plain (p.write ':' next)) .outside) := by
  have hplain := h.opened.2
  by_cases hlast : p.behind.1 = some ':'
  · have hmarks : p.write ':' next = ':' := by simp [Place.write, Place.marks, hlast]
    rw [hmarks]
    simp [take, hlast]
  · cases next with
    | none =>
      have hmarks : p.write ':' none = ':' := by simp [Place.write, Place.marks]
      rw [hmarks]
      simp [take, hlast]
    | some d =>
      have hmarks : p.write ':' (some d) = if d.isDigit then '$' else ':' := by
        simp [Place.write, Place.marks, hlast, hplain]
      rw [hmarks]
      simp [take, hlast]

theorem follows_outside (offset : Nat) (h : Mode.outside.Reads p (some c)) :
    ∃ taken, take .numeric p.behind offset c next .outside = .ok taken ∧
      Follows p c next taken := by
  obtain ⟨hread, hplain⟩ := h.opened
  have hdash : p.behind.1 = some '-' → c ≠ '-' := fun hlast hc => h.2 hlast (congrArg some hc)
  by_cases hquote : c = '\''
  · subst hquote
    refine ⟨_, take_opening, .one (Place.write_of_ne (by decide)) ?_⟩
    cases hopens : opensEscaped p.behind with
    | true => exact .inl (hread.trans (by simp [Region.opened, hopens]))
    | false => exact hread.trans (by simp [Region.opened, hopens])
  by_cases hdouble : c = '"'
  · subst hdouble
    exact ⟨_, rfl, .one (Place.write_of_ne (by decide)) hread⟩
  -- No other character begins anything by itself, as no dash is behind.
  have houtside : (p.read c).region = .outside := by
    rw [hread, Region.opened, if_neg hquote, if_neg hdouble,
      if_neg fun hc : _ ∧ _ => hdash hc.2 hc.1]
  by_cases hcomment : c = '-' ∧ next = some '-'
  · obtain ⟨rfl, rfl⟩ := hcomment
    refine ⟨_, rfl, .two rfl (Place.write_of_ne (by decide))
      (fun _ => Place.write_of_ne (by decide)) fun _ => ?_⟩
    show ((p.read '-').read '-').region = .comment
    rw [Place.read, houtside]
    rfl
  have hreads : Mode.outside.Reads (p.read c) next :=
    ⟨.inl houtside, fun hlast hnext => hcomment ⟨Option.some.inj hlast, hnext⟩⟩
  by_cases hcolon : c = ':'
  · subst hcolon
    exact ⟨_, take_colon offset h, .one rfl hreads⟩
  · refine ⟨_, ?_, .one (Place.write_of_ne hcolon) hreads⟩
    simp [take, hquote, hdouble, hcolon, hcomment]

/-- Every step of the scan follows the place that it is at. -/
theorem Mode.Reads.follows (offset : Nat) (h : mode.Reads p (some c)) :
    ∃ taken, take .numeric p.behind offset c next mode = .ok taken ∧ Follows p c next taken := by
  cases mode with
  | outside => exact follows_outside offset h
  | literal | identifier => exact follows_quoted offset rfl nofun h
  | escaped =>
    by_cases hc : c = '\\'
    · subst hc
      exact follows_backslash offset h
    · exact follows_quoted offset rfl (fun _ => hc) h
  | comment => exact follows_comment offset h
  | name | parens => exact h.elim

end Steps

/-- The scan writes a dollar sign for each colon that marks a parameter, and nothing else for
another character. -/
theorem scan_numeric {mode : Mode} {p : Place} (text : List Char) (h : mode.Reads p text.head?)
    (offset : Nat) :
    scan .numeric mode p.behind offset text = .ok ((dollared p text).map .plain) := by
  induction hlength : text.length using Nat.strongRecOn generalizing text mode p offset with
  | ind n ih =>
    cases text with
    | nil =>
      cases mode with
      | name | parens => exact h.elim
      | outside | literal | identifier | escaped | comment => rfl
    | cons c rest =>
      rw [List.length_cons] at hlength
      have htaken : ∃ taken, take .numeric p.behind offset c rest.head? mode = .ok taken ∧
          Follows p c rest.head? taken := h.follows offset
      obtain ⟨taken, htake, hfollows⟩ := htaken
      cases hfollows with
      | one hwrite reads =>
        rw [dollared, hwrite]
        exact scan_one _ htake rfl (ih rest.length (by omega) rest reads _ rfl)
      | two hnext first second reads =>
        obtain ⟨rest, rfl⟩ := List.head?_eq_some_iff.1 hnext
        rw [List.length_cons] at hlength
        rw [dollared, first, dollared, second]
        exact scan_two _ htake rfl (ih rest.length (by omega) rest (reads _) _ rfl)

/-! ## The converted text -/

/-- Conversion from the numeric style never fails, and is the rewriting of its colons. -/
theorem convert_numeric (sql : String) :
    convert .numeric sql = .ok (String.ofList (dollared {} sql.toList), .positional) := by
  have hstart : Mode.outside.Reads {} sql.toList.head? := ⟨.inl rfl, fun hlast => nomatch hlast⟩
  have hscan : pieces .numeric sql.toList = .ok ((dollared {} sql.toList).map .plain) :=
    scan_numeric sql.toList hstart 0
  have hnames (text : List Char) : names (text.map .plain) = [] := by
    have hnone : (text.map Piece.plain).filterMap Piece.name? = [] := by
      rw [List.filterMap_map]
      exact List.filterMap_eq_nil_iff.2 fun _ _ => rfl
    rw [names, hnone]
    rfl
  have hfilled (text : List Char) : filled [] 0 (text.map .plain) = text := by
    have hplain := filled_plain [] 0 text []
    rwa [filled, List.append_nil, List.append_nil] at hplain
  rw [convert_eq, hscan]
  show (do
    if names _ ≠ [] ∧ _ then throw _
    return (_, _)) = _
  rw [hnames, if_neg fun h => h.1 rfl, hfilled]
  rfl

section Places

variable {p q : Place} {text : List Char}

theorem length_dollared : (dollared p text).length = text.length := by
  induction text generalizing p with
  | nil => rfl
  | cons c rest ih => rw [dollared, List.length_cons, List.length_cons, ih]

/-- The rewriting of the rest of a text goes by the place that the front of it leads to. -/
theorem getElem?_dollared (i : Nat) :
    (dollared p text)[i]? =
      text[i]?.map fun c => ((text.take i).foldl Place.read p).write c text[i + 1]? := by
  induction text generalizing p i with
  | nil => rfl
  | cons c rest ih =>
    cases i with
    | zero =>
      rw [dollared, List.head?_eq_getElem?]
      rfl
    | succ i =>
      rw [dollared, List.getElem?_cons_succ, ih]
      rfl

/-- The character behind a place is the last one of the text in front of it. -/
theorem behind_after (text : List Char) : (Place.after text).behind.1 = text.getLast? := by
  induction text using List.reverseRecOn with
  | nil => rfl
  | append_singleton text c =>
    rw [Place.after, List.foldl_append, List.getLast?_concat]
    rfl

/-- Place by place, a colon that marks a parameter is written as a dollar sign. -/
theorem getElem?_dollared_after (text : List Char) (i : Nat) :
    (dollared {} text)[i]? = if MarksAt text i then some '$' else text[i]? := by
  rw [getElem?_dollared]
  cases hc : text[i]? with
  | none =>
    have hmarks : ¬ MarksAt text i := fun h => by cases hc.symm.trans h.1
    exact (if_neg hmarks).symm
  | some c =>
    have hmarks : MarksAt text i ↔ (Place.after (text.take i)).marks c text[i + 1]? = true := by
      rw [Place.marks_eq_true_iff, MarksAt, hc, behind_after, Option.some_inj]
    by_cases h : MarksAt text i
    · rw [if_pos h]
      exact congrArg some (if_pos (hmarks.1 h))
    · rw [if_neg h]
      exact congrArg some (if_neg (mt hmarks.2 h))

/-! ## Stability -/

/-- A place of a text and the same place of the rewritten text, given the next character. The one
difference is a colon behind the first that has become a dollar sign, which is before a digit. -/
structure Alike (p q : Place) (next : Option Char) : Prop where
  region : q.region = p.region
  last : q.behind.1 = p.behind.1 ∨
    p.behind.1 = some ':' ∧ q.behind.1 = some '$' ∧ next.any Char.isDigit = true
  before : q.behind.2.any isIdent = p.behind.2.any isIdent

/-- A digit stays a digit, and no other character becomes one. -/
theorem digit_head_dollared :
    (dollared p text).head?.any Char.isDigit = text.head?.any Char.isDigit := by
  cases text with
  | nil => rfl
  | cons c rest =>
    show (p.write c rest.head?).isDigit = c.isDigit
    by_cases h : p.marks c rest.head? = true
    · rw [Place.write, if_pos h, (Place.marks_eq_true_iff.1 h).1]
      rfl
    · rw [Place.write, if_neg h]

theorem opensEscaped_eq (behind : Behind) : opensEscaped behind =
    (behind.1.any (fun c => c = 'E' || c = 'e') && !behind.2.any isIdent) := by
  obtain ⟨last, before⟩ := behind
  unfold opensEscaped
  split
  · next heq =>
    cases heq
    rfl
  · next heq =>
    cases heq
    rfl
  · next hupper hlower =>
    have hlast : last.any (fun c => c = 'E' || c = 'e') = false := by
      cases last with
      | none => rfl
      | some c =>
        refine Bool.eq_false_iff.2 fun hc => ?_
        obtain rfl | rfl : c = 'E' ∨ c = 'e' := by simpa using hc
        · exact hupper before rfl
        · exact hlower before rfl
    rw [hlast, Bool.false_and]

/-- Neither a colon nor a dollar sign has a part in what a character opens. -/
theorem Alike.opened {c : Char} {next : Option Char} (h : Alike p q next) :
    Region.opened q.behind c = Region.opened p.behind c := by
  have hescape : q.behind.1.any (fun c => c = 'E' || c = 'e') =
      p.behind.1.any (fun c => c = 'E' || c = 'e') := by
    obtain hlast | ⟨hp, hq, -⟩ := h.last
    · rw [hlast]
    · rw [hp, hq]
      rfl
  have hdash : q.behind.1 = some '-' ↔ p.behind.1 = some '-' := by
    obtain hlast | ⟨hp, hq, -⟩ := h.last
    · rw [hlast]
    · rw [hp, hq]
      decide
  rw [Region.opened, Region.opened, opensEscaped_eq, opensEscaped_eq, hescape, h.before]
  simp only [hdash]

/-- The next character keeps the places alike, whether it is written as it is or not. -/
theorem Alike.read {c : Char} {rest : List Char} (h : Alike p q (some c)) :
    Alike (p.read c) (q.read (p.write c rest.head?)) rest.head? := by
  have hbefore : q.behind.1.any isIdent = p.behind.1.any isIdent := by
    obtain hlast | ⟨hp, hq, -⟩ := h.last
    · rw [hlast]
    · rw [hp, hq]
      decide
  by_cases hmarks : p.marks c rest.head? = true
  · obtain ⟨rfl, hplain, -, hdigit⟩ := Place.marks_eq_true_iff.1 hmarks
    rw [Place.write, if_pos hmarks]
    refine ⟨?_, .inr ⟨rfl, rfl, hdigit⟩, hbefore⟩
    show q.region.next q.behind '$' = p.region.next p.behind ':'
    rw [h.region]
    cases hregion : p.region with
    | outside | quote => rfl
    | literal | identifier | escaped | backslash | comment =>
      rw [hregion] at hplain
      cases hplain
  · rw [Place.write, if_neg hmarks]
    refine ⟨?_, .inl rfl, hbefore⟩
    show q.region.next q.behind c = p.region.next p.behind c
    rw [h.region]
    cases p.region with
    | outside => exact h.opened
    | quote => rw [Region.next, Region.next, h.opened]
    | literal | identifier | escaped | backslash | comment => rfl

/-- What is written for a character is written as it is in turn. -/
theorem Alike.write {c : Char} {rest : List Char} (h : Alike p q (some c)) :
    q.write (p.write c rest.head?) (dollared (p.read c) rest).head? = p.write c rest.head? := by
  by_cases hmarks : p.marks c rest.head? = true
  · rw [show p.write c rest.head? = '$' from if_pos hmarks]
    exact Place.write_of_ne (by decide)
  · rw [show p.write c rest.head? = c from if_neg hmarks]
    refine if_neg fun hagain => hmarks ?_
    obtain ⟨rfl, hplain, hlast, hdigit⟩ := Place.marks_eq_true_iff.1 hagain
    rw [digit_head_dollared] at hdigit
    -- A colon is no digit, so what is behind it is the same in both texts.
    have hsame : q.behind.1 = p.behind.1 := h.last.resolve_right fun hother => nomatch hother.2.2
    exact Place.marks_eq_true_iff.2 ⟨rfl, h.region ▸ hplain, hsame ▸ hlast, hdigit⟩

/-- Rewriting at places alike leaves rewritten text as it is. -/
theorem dollared_dollared (h : Alike p q text.head?) :
    dollared q (dollared p text) = dollared p text := by
  induction text generalizing p q with
  | nil => rfl
  | cons c rest ih =>
    have hrest : dollared (q.read (p.write c rest.head?)) (dollared (p.read c) rest) =
        dollared (p.read c) rest := ih h.read
    rw [dollared, dollared, h.write, hrest]

end Places

/-- Conversion from the numeric style succeeds for every text and keeps its length. It changes a
colon to a dollar sign where that marks a parameter, and no other character; and it leaves
converted text as it is. -/
theorem numeric_stable (sql : String) :
    ∃ text, convert .numeric sql = .ok (text, .positional) ∧
      text.toList.length = sql.toList.length ∧
      (∀ i, text.toList[i]? = if MarksAt sql.toList i then some '$' else sql.toList[i]?) ∧
      convert .numeric text = .ok (text, .positional) := by
  have htext : (String.ofList (dollared {} sql.toList)).toList = dollared {} sql.toList :=
    String.toList_ofList
  refine ⟨_, convert_numeric sql, ?_, fun i => ?_, ?_⟩
  · rw [htext, length_dollared]
  · rw [htext, getElem?_dollared_after]
  · have hagain : dollared {} (dollared {} sql.toList) = dollared {} sql.toList :=
      dollared_dollared ⟨rfl, .inl rfl, rfl⟩
    rw [convert_numeric, htext, hagain]

/-- The quote after the backslash does not end the literal, so of the four colons before a digit
one marks a parameter. -/
example : (List.range 27).filter (MarksAt "E'\\':1' :1, a::2 \":3\" --:4".toList) = [8] := by
  decide

end PgClient.Placeholder
