/-
  PgClient.Proofs.Placeholder.Agreement

  The five styles agree. A template is what all of them can write: plain text,
  quoted text of each kind, comments, and slots for parameters. Whichever style
  it is written in, its conversion has the same text and asks for the same
  values in the same order, and nothing that is quoted is touched.
-/
import Mathlib.Data.List.Chain
import Mathlib.Data.List.Nodup
import PgClient.Proofs.Placeholder.Numbering
import PgClient.Proofs.Placeholder.Scan

namespace PgClient.Placeholder

/-! ## Templates -/

/-- A part of a template. Plain text stands in it character by character; the text of the other
parts is without its quotes and escapes. -/
inductive Segment where
  | plain (c : Char)
  | literal (text : List Char)
  | identifier (text : List Char)
  | escaped (text : List Char)
  | comment (text : List Char)
  | slot (name : List Char)

namespace Segment

def name? : Segment → Option (List Char)
  | slot name => some name
  | _ => none

def isQuoted : Segment → Bool
  | literal _ | identifier _ | escaped _ => true
  | _ => false

/-- What a part must be in itself. -/
def Fits : Segment → Prop
  | plain c => c ∉ ['\'', '"', '?', ':']
  | comment text => '\n' ∉ text
  | slot name => IsName name
  | literal _ | identifier _ | escaped _ => True

instance : DecidablePred Fits
  | plain c => inferInstanceAs (Decidable (c ∉ ['\'', '"', '?', ':']))
  | comment text => inferInstanceAs (Decidable ('\n' ∉ text))
  | slot name => inferInstanceAs (Decidable (IsName name))
  | literal _ | identifier _ | escaped _ => .isTrue trivial

/-- What may stand next to each other: plain text must not come to mean something, and no quoted
text comes at once after quoted text or a slot. -/
def Precedes : Segment → Segment → Prop
  | plain c, plain d => ¬ (c = '-' ∧ d = '-')
  | plain c, literal _ => c ≠ 'E' ∧ c ≠ 'e'
  | plain c, escaped _ => isIdent c = false
  | slot _, plain c => isIdent c = false
  | plain _, _ | comment _, _ => True
  | slot _, next | literal _, next | identifier _, next | escaped _, next => next.isQuoted = false

instance : DecidableRel Precedes
  | plain c, plain d => inferInstanceAs (Decidable (¬ (c = '-' ∧ d = '-')))
  | plain c, literal _ => inferInstanceAs (Decidable (c ≠ 'E' ∧ c ≠ 'e'))
  | plain c, escaped _ | slot _, plain c => inferInstanceAs (Decidable (isIdent c = false))
  | plain _, identifier _ | plain _, comment _ | plain _, slot _ | comment _, _ => .isTrue trivial
  | slot _, literal _ | slot _, identifier _ | slot _, escaped _ => .isFalse nofun
  | slot _, comment _ | slot _, slot _ => .isTrue rfl
  | literal _, next | identifier _, next | escaped _, next =>
    inferInstanceAs (Decidable (next.isQuoted = false))

/-- A part without a slot as it stands in SQL. -/
def text : Segment → List Char
  | plain c => [c]
  | literal text => '\'' :: (doubled '\'' text ++ ['\''])
  | identifier text => '"' :: (doubled '"' text ++ ['"'])
  | escaped text => 'E' :: '\'' :: (backslashed text ++ ['\''])
  | comment text => '-' :: '-' :: (text ++ ['\n'])
  | slot _ => []

/-- A part as it is written in a style; a percent sign is doubled where it could mean something. -/
def written (style : Style) (n : Nat) : Segment → List Char
  | plain c => if c = '%' ∧ (style = .format ∨ style = .pyformat) then [c, c] else [c]
  | slot name => style.placeholder n name
  | other => other.text

/-- A part as the server gets it. -/
def converted (n : Nat) : Segment → List Char
  | slot _ => numbered n
  | other => other.text

/-- What the scan makes of a part. -/
def pieces (style : Style) (n : Nat) : Segment → List Piece
  | slot name => style.marked n name
  | other => other.text.map .plain

/-- The number of the first slot after a part. -/
def next (n : Nat) : Segment → Nat
  | slot _ => n + 1
  | _ => n

/-- What is made of each part, in order; slots are numbered from `n`. -/
def concat {α : Type} (f : Nat → Segment → List α) (n : Nat) : List Segment → List α
  | [] => []
  | s :: rest => f n s ++ concat f (s.next n) rest

end Segment

/-- SQL that can be written in any style. -/
structure Template where
  segments : List Segment
  fits : ∀ s ∈ segments, s.Fits
  chained : segments.IsChain Segment.Precedes
  distinct : (segments.filterMap Segment.name?).Nodup

namespace Template

/-- The names of the slots in order. -/
def slots (t : Template) : List (List Char) := t.segments.filterMap Segment.name?

def names (t : Template) : List String := t.slots.map String.ofList

/-- A template written in a style. -/
def sql (t : Template) (style : Style) : String :=
  String.ofList (Segment.concat (Segment.written style) 1 t.segments)

/-- A template with numbered placeholders. -/
def converted (t : Template) : String :=
  String.ofList (Segment.concat Segment.converted 1 t.segments)

/-- Arguments that give the slots these values: a list, or under names a mapping that holds
them, whatever its order and whatever else it holds. -/
def Supplied (t : Template) (style : Style) (values : List Value) : Arguments → Prop
  | .positional given =>
    (style = .qmark ∨ style = .numeric ∨ style = .format) ∧ given = values
  | .named entries =>
    (style = .named ∨ style = .pyformat) ∧
      t.names.map (fun name => entries.lookup name) = values.map some

end Template

/-! ## The scan of a part -/

namespace Segment

variable {style : Style} {last : Option Char} {n : Nat} {s s' : Segment} {rest : List Char}
  {ps : List Piece}

/-- Whether a part can be told after some character. -/
def Ready (last : Option Char) : Segment → Prop
  | literal _ => last ≠ some 'E' ∧ last ≠ some 'e'
  | escaped _ => last.any isIdent = false
  | slot _ => last ≠ some ':'
  | _ => True

/-- Whether a part can be told from the text after it. A hyphen may be followed by a comment. -/
def Before (rest : List Char) : Segment → Prop
  | plain c => c = '-' → rest.head? = some '-' → ∃ text, rest = '-' :: '-' :: text
  | literal _ | escaped _ => rest.head? ≠ some '\''
  | identifier _ => rest.head? ≠ some '"'
  | slot _ => rest.head?.any isIdent = false
  | comment _ => True

/-- The characters in which a part may end. -/
def Ends (c : Char) : Segment → Prop
  | plain d => c = d
  | literal _ | escaped _ => c = '\''
  | identifier _ => c = '"'
  | comment _ => c = '\n'
  | slot _ => c ≠ ':'

/-- The scan takes a part for what it is. -/
theorem gives (hfits : s.Fits) (hready : s.Ready last) (hbefore : s.Before rest)
    (h : ∀ c, s.Ends c → Gives style (some c) rest ps) :
    Gives style last (s.written style n ++ rest) (s.pieces style n ++ ps) := by
  cases s with
  | plain c =>
    have hrest := h c rfl
    by_cases hpercent : c = '%' ∧ (style = .format ∨ style = .pyformat)
    · rw [written, if_pos hpercent]
      obtain ⟨rfl, hstyle⟩ := hpercent
      intro before offset
      refine scan_two (.two [.plain '%'] .outside) ?_ rfl (hrest _ _)
      obtain rfl | rfl := hstyle <;> rfl
    · rw [written, if_neg hpercent]
      by_cases hdash : c = '-' ∧ rest.head? = some '-'
      · obtain ⟨rfl, hnext⟩ := hdash
        obtain ⟨text, rfl⟩ := hbefore rfl hnext
        exact gives_dash hrest
      · refine gives_plain hfits (fun hc hnext => hdash ⟨hc, hnext⟩) (fun hc => ?_) hrest
        exact not_or.1 fun hstyle => hpercent ⟨hc, hstyle⟩
  | literal text =>
    exact gives_literal hready
      ((passes_doubled rfl (by decide) text).closed rfl hbefore (h _ rfl))
  | identifier text =>
    exact gives_identifier ((passes_doubled rfl (by decide) text).closed rfl hbefore (h _ rfl))
  | escaped text =>
    exact gives_escaped hready ((passes_backslashed text).closed rfl hbefore (h _ rfl))
  | comment text => exact gives_comment (yields_comment hfits (h _ rfl))
  | slot name => exact gives_placeholder hready hfits hbefore h

/-- A part that may follow another can be told after it. -/
theorem Precedes.ready (h : s.Precedes s') (hfits : s.Fits) {c : Char} (hends : s.Ends c) :
    s'.Ready (some c) := by
  cases s' with
  | plain | identifier | comment => trivial
  | literal text =>
    cases s with
    | plain d =>
      cases hends
      exact ⟨fun he => h.1 (Option.some.inj he), fun he => h.2 (Option.some.inj he)⟩
    | comment =>
      cases hends
      exact ⟨by decide, by decide⟩
    | literal | identifier | escaped | slot => cases h
  | escaped text =>
    cases s with
    | plain d =>
      cases hends
      exact h
    | comment =>
      cases hends
      rfl
    | literal | identifier | escaped | slot => cases h
  | slot name =>
    refine fun hcolon => ?_
    cases hcolon
    cases s with
    | plain d =>
      cases hends
      exact hfits (by decide)
    | literal | identifier | escaped | comment => cases hends
    | slot => exact hends rfl

/-- The first character of a part. -/
def first (style : Style) : Segment → Char
  | plain c => c
  | literal _ => '\''
  | identifier _ => '"'
  | escaped _ => 'E'
  | comment _ => '-'
  | slot _ =>
    match style with
    | .qmark => '?'
    | .numeric | .named => ':'
    | .format | .pyformat => '%'

theorem head_written (style : Style) (n : Nat) (s : Segment) (rest : List Char) :
    (s.written style n ++ rest).head? = some (s.first style) := by
  cases s with
  | plain c =>
    rw [written]
    split <;> rfl
  | slot name => cases style <;> rfl
  | literal | identifier | escaped | comment => rfl

/-- A part without quotes is plain, or begins with a character that is no part of a name. -/
theorem first_cases (style : Style) (h : s.isQuoted = false) :
    (∃ c, s = plain c) ∨ isIdent (s.first style) = false ∧ s.first style ∉ ['\'', '"'] := by
  cases s with
  | plain c => exact .inl ⟨c, rfl⟩
  | comment => exact .inr ⟨rfl, by simp [first]⟩
  | slot => exact .inr (by cases style <;> exact ⟨rfl, by simp [first]⟩)
  | literal | identifier | escaped => cases h

/-- Quoted text ends at its quote, since no quoted text follows at once. -/
theorem head_ne_quote {quote : Char} (hquote : quote ∈ ['\'', '"']) (h : s.isQuoted = false)
    (hfits : s.Fits) : (s.written style n ++ rest).head? ≠ some quote := by
  rw [head_written]
  rintro ⟨⟩
  obtain ⟨c, rfl⟩ | ⟨-, hfirst⟩ := first_cases style h
  · exact hfits (List.mem_append_left ['?', ':'] hquote)
  · exact hfirst hquote

theorem before_nil (s : Segment) : s.Before [] := by
  cases s with
  | plain => exact nofun
  | literal | identifier | escaped => exact nofun
  | slot => rfl
  | comment => trivial

/-- A part can be told from one that may follow it. -/
theorem Precedes.before (h : s.Precedes s') (hfits : s'.Fits) (rest : List Char) :
    s.Before (s'.written style n ++ rest) := by
  cases s with
  | plain c =>
    rintro rfl hnext
    rw [head_written] at hnext
    cases s' with
    | plain d => exact absurd ⟨rfl, Option.some.inj hnext⟩ h
    | comment text => exact ⟨text ++ ['\n'] ++ rest, rfl⟩
    | slot name => cases style <;> cases hnext
    | literal | identifier | escaped => cases hnext
  | literal | escaped | identifier => exact head_ne_quote (by decide) h hfits
  | comment => trivial
  | slot name =>
    show Option.any isIdent _ = false
    rw [head_written]
    cases s' with
    | plain d => exact h
    | comment | slot => exact ((first_cases style h).resolve_left nofun).1
    | literal | identifier | escaped => cases h

/-! ## The scan of a template -/

/-- The scan takes every part of a template for what it is. -/
theorem gives_concat {segments : List Segment} (hfits : ∀ s ∈ segments, s.Fits)
    (hchain : segments.IsChain Precedes) (hready : ∀ s ∈ segments.head?, s.Ready last) :
    Gives style last (concat (written style) n segments) (concat (pieces style) n segments) := by
  induction segments generalizing last n with
  | nil => exact fun _ _ => rfl
  | cons s rest ih =>
    have hs := hfits s List.mem_cons_self
    have hrest : ∀ t ∈ rest, t.Fits := fun t ht => hfits t (List.mem_cons_of_mem _ ht)
    obtain ⟨hnext, hchain⟩ := List.isChain_cons.1 hchain
    refine gives hs (hready s rfl) ?_ fun c hends =>
      ih hrest hchain fun t ht => (hnext t ht).ready hs hends
    cases rest with
    | nil => exact before_nil s
    | cons t rest => exact (hnext t rfl).before (hrest t List.mem_cons_self) _

/-! ## The numbers of a template -/

theorem mem_concat {α : Type} {f : Nat → Segment → List α} {segments : List Segment} {a : α}
    (h : a ∈ concat f n segments) : ∃ s m, a ∈ f m s := by
  induction segments generalizing n with
  | nil => cases h
  | cons s rest ih =>
    obtain h | h := List.mem_append.1 h
    · exact ⟨s, n, h⟩
    · exact ih h

/-- A style marks all of its slots with names, or all of them without, or as plain text. -/
theorem mem_pieces {p : Piece} (h : p ∈ s.pieces style n) :
    match p with
    | .plain _ => True
    | .positional => style = .qmark ∨ style = .format
    | .named _ => style = .named ∨ style = .pyformat := by
  have hplain (text : List Char) (h : p ∈ text.map Piece.plain) : ∃ c, p = .plain c := by
    obtain ⟨c, -, hc⟩ := List.mem_map.1 h
    exact ⟨c, hc.symm⟩
  cases s with
  | slot name =>
    cases style with
    | qmark | named | format | pyformat =>
      obtain rfl := List.mem_singleton.1 h
      simp
    | numeric =>
      obtain ⟨c, rfl⟩ := hplain (numbered n) h
      trivial
  | plain | literal | identifier | escaped | comment =>
    obtain ⟨c, rfl⟩ := hplain _ h
    trivial

/-- Where the style writes names, they are found in order. -/
theorem names_concat (hstyle : style = .named ∨ style = .pyformat) (n : Nat)
    (segments : List Segment) :
    (concat (pieces style) n segments).filterMap Piece.name? = segments.filterMap name? := by
  have hplain (text : List Char) : (text.map Piece.plain).filterMap Piece.name? = [] := by
    rw [List.filterMap_map]
    exact List.filterMap_eq_nil_iff.2 fun _ _ => rfl
  induction segments generalizing n with
  | nil => rfl
  | cons s rest ih =>
    rw [concat, List.filterMap_append, ih]
    cases s with
    | slot name => obtain rfl | rfl := hstyle <;> rfl
    | plain | literal | identifier | escaped | comment =>
      rw [pieces, hplain]
      · rfl
      · exact nofun

/-- A slot gets its number if that is the next one, or that of its name. -/
theorem filled_marked {names : List (List Char)} {count : Nat} {name : List Char}
    (hcount : style = .qmark ∨ style = .format → count + 1 = n)
    (hnames : style = .named ∨ style = .pyformat → names.idxOf name + 1 = n) (ps : List Piece) :
    filled names count (style.marked n name ++ ps) =
      numbered n ++ filled names (if style = .qmark ∨ style = .format then n else count) ps := by
  cases style with
  | qmark | format =>
    rw [if_pos (by decide), ← hcount (by decide)]
    rfl
  | numeric => exact filled_plain names count (numbered n) ps
  | named | pyformat =>
    rw [if_neg (by decide), ← hnames (by decide)]
    rfl

/-- Slots get their numbers, whether they are counted or looked up by their names. -/
theorem filled_concat {names : List (List Char)} (done : List (List Char)) {count : Nat}
    {segments : List Segment}
    (hcount : style = .qmark ∨ style = .format → count + 1 = n)
    (hnames : style = .named ∨ style = .pyformat →
      done.length + 1 = n ∧ names = done ++ segments.filterMap name? ∧ names.Nodup) :
    filled names count (concat (pieces style) n segments) =
      concat Segment.converted n segments := by
  induction segments generalizing n count done with
  | nil => rfl
  | cons s rest ih =>
    cases s with
    | slot name =>
      have hall (hstyle : style = .named ∨ style = .pyformat) :
          names = done ++ name :: rest.filterMap name? := (hnames hstyle).2.1
      have hplace (hstyle : style = .named ∨ style = .pyformat) : names.idxOf name + 1 = n := by
        obtain ⟨hn, -, hnodup⟩ := hnames hstyle
        rw [hall hstyle] at hnodup ⊢
        have hnew : name ∉ done := fun h =>
          List.disjoint_of_nodup_append hnodup h List.mem_cons_self
        rw [List.idxOf_append_of_notMem hnew, List.idxOf_cons_self, Nat.add_zero, hn]
      refine (filled_marked hcount hplace _).trans (congrArg _ ?_)
      refine ih (done ++ [name]) (fun hstyle => by rw [if_pos hstyle]; rfl)
        fun hstyle => ⟨?_, ?_, (hnames hstyle).2.2⟩
      · rw [List.length_append, List.length_singleton, (hnames hstyle).1]
        rfl
      · rw [hall hstyle, List.append_assoc]
        rfl
    | plain | literal | identifier | escaped | comment =>
      exact (filled_plain _ _ _ _).trans (congrArg _ (ih done hcount hnames))

end Segment

/-! ## Conversion -/

namespace Template

variable {style : Style} {values : List Value} {args : Arguments}

/-- The order in which the values are asked for. -/
def order (t : Template) (style : Style) : Order :=
  match style with
  | .qmark | .numeric | .format => .positional
  | .named | .pyformat => .named t.names

theorem pieces_sql (t : Template) (style : Style) :
    Placeholder.pieces style (t.sql style).toList =
      .ok (Segment.concat (Segment.pieces style) 1 t.segments) := by
  rw [sql, String.toList_ofList]
  have hgives : Gives style none (Segment.concat (Segment.written style) 1 t.segments)
      (Segment.concat (Segment.pieces style) 1 t.segments) :=
    Segment.gives_concat t.fits t.chained fun s _ => ?_
  · exact hgives none 0
  cases s with
  | literal => exact ⟨nofun, nofun⟩
  | escaped => rfl
  | slot => exact nofun
  | plain | identifier | comment => trivial

/-- Names that are distinct are all kept. -/
theorem eraseDups_of_nodup {α : Type} [BEq α] [LawfulBEq α] {as : List α} (h : as.Nodup) :
    as.eraseDups = as := by
  induction as with
  | nil => rfl
  | cons a as ih =>
    obtain ⟨ha, has⟩ := List.nodup_cons.1 h
    have hfilter : as.filter (fun b => !b == a) = as := by
      refine List.filter_eq_self.2 fun b hb => ?_
      rw [beq_false_of_ne (ne_of_mem_of_not_mem hb ha), Bool.not_false]
    rw [List.eraseDups_cons, hfilter, ih has]

/-- The names that a conversion finds: those of the slots, or none. -/
theorem names_pieces (t : Template) (style : Style) :
    Placeholder.names (Segment.concat (Segment.pieces style) 1 t.segments) =
      if style = .named ∨ style = .pyformat then t.slots else [] := by
  rw [Placeholder.names]
  split
  · rename_i hstyle
    rw [Segment.names_concat hstyle, eraseDups_of_nodup t.distinct]
    rfl
  · rename_i hstyle
    have hnone : (Segment.concat (Segment.pieces style) 1 t.segments).filterMap Piece.name? =
        [] := by
      refine List.filterMap_eq_nil_iff.2 fun p hp => ?_
      obtain ⟨s, n, hp⟩ := Segment.mem_concat hp
      cases p with
      | plain | positional => rfl
      | named => exact absurd (Segment.mem_pieces hp) hstyle
    rw [hnone]
    rfl

/-- Where there are names, nothing is counted. -/
theorem count_pieces (t : Template) (style : Style) (h : ¬ (style = .qmark ∨ style = .format)) :
    (Segment.concat (Segment.pieces style) 1 t.segments).count .positional = 0 := by
  refine List.count_eq_zero.2 fun hp => ?_
  obtain ⟨s, n, hp⟩ := Segment.mem_concat hp
  exact h (Segment.mem_pieces hp)

/-- Whichever style it is written in, a template is converted to the same text. -/
theorem convert_sql (t : Template) (style : Style) :
    convert style (t.sql style) = .ok (t.converted, t.order style) := by
  have hnames := t.names_pieces style
  have hcount := t.count_pieces style
  have hfilled : filled (Placeholder.names (Segment.concat (Segment.pieces style) 1 t.segments)) 0
      (Segment.concat (Segment.pieces style) 1 t.segments) =
        Segment.concat Segment.converted 1 t.segments := by
    refine Segment.filled_concat [] (fun _ => rfl) fun hstyle => ?_
    rw [hnames, if_pos hstyle]
    exact ⟨rfl, rfl, t.distinct⟩
  rw [convert_eq, pieces_sql]
  generalize Segment.concat (Segment.pieces style) 1 t.segments = ps at hnames hcount hfilled
  have hmixed : ¬ (Placeholder.names ps ≠ [] ∧ 0 < ps.count .positional) := by
    rintro ⟨hnamed, hcounted⟩
    by_cases hstyle : style = .qmark ∨ style = .format
    · rw [hnames, if_neg (by obtain rfl | rfl := hstyle <;> decide)] at hnamed
      exact hnamed rfl
    · rw [hcount hstyle] at hcounted
      cases hcounted
  show (if Placeholder.names ps ≠ [] ∧ 0 < ps.count .positional then _ else _) = _
  rw [if_neg hmixed]
  show Except.ok (String.ofList (filled (Placeholder.names ps) 0 ps), _) = _
  rw [hfilled, converted]
  cases style with
  | qmark | numeric | format => rfl
  | named =>
    rw [hnames, if_pos (.inl rfl)]
    rfl
  | pyformat =>
    rw [hnames, if_pos (.inr rfl), hcount (by decide)]
    rfl

/-! ## Values -/

theorem nodup_names (t : Template) : t.names.Nodup :=
  t.distinct.map fun _ _ => String.ofList_injective

/-- The slots get the values that they are given. -/
theorem arrange_supplied (t : Template) (h : t.Supplied style values args) :
    (t.order style).arrange args = .ok values := by
  cases args with
  | positional given =>
    obtain ⟨hstyle, rfl⟩ := h
    obtain rfl | rfl | rfl := hstyle <;> rfl
  | named entries =>
    obtain ⟨hstyle, hvalues⟩ := h
    have hcollect := (collect_eq_ok_iff t.nodup_names).2 hvalues
    obtain rfl | rfl := hstyle <;> exact hcollect

/-- A list of values or, under names, the mapping of each slot to its value. -/
def arguments (t : Template) (style : Style) (values : List Value) : Arguments :=
  match style with
  | .qmark | .numeric | .format => .positional values
  | .named | .pyformat => .named (t.names.zip values)

theorem lookup_zip {names : List String} (hnodup : names.Nodup)
    (hlength : names.length = values.length) :
    names.map (fun name => (names.zip values).lookup name) = values.map some := by
  induction names generalizing values with
  | nil =>
    obtain rfl := List.length_eq_zero_iff.1 hlength.symm
    rfl
  | cons name names ih =>
    obtain ⟨hname, hnodup⟩ := List.nodup_cons.1 hnodup
    cases values with
    | nil => cases hlength
    | cons v values =>
      have hothers : names.map (fun other => ((name, v) :: names.zip values).lookup other) =
          names.map (fun other => (names.zip values).lookup other) := by
        refine List.map_congr_left fun other hother => ?_
        rw [List.lookup_cons, beq_false_of_ne (ne_of_mem_of_not_mem hother hname)]
      rw [List.zip_cons_cons, List.map_cons, List.map_cons, hothers,
        ih hnodup (Nat.succ.inj hlength), List.lookup_cons_self]

/-- One value for each slot can be given in every style. -/
theorem supplied_arguments (t : Template) (style : Style) (h : t.slots.length = values.length) :
    t.Supplied style values (t.arguments style values) := by
  have hlength : t.names.length = values.length := (List.length_map _).trans h
  cases style with
  | qmark | numeric | format => exact ⟨by decide, rfl⟩
  | named | pyformat => exact ⟨by decide, lookup_zip t.nodup_names hlength⟩

/-- Whichever style a template is written in, it is converted to the same text, in which all that
is quoted is left as it is. The slots get the values that they are given, in order, and in every
style they can be given any values. -/
theorem styles_agree (t : Template) (style : Style) :
    ∃ order, convert style (t.sql style) = .ok (t.converted, order) ∧
      (∀ values args, t.Supplied style values args → order.arrange args = .ok values) ∧
      ∀ values : List Value, t.slots.length = values.length →
        t.Supplied style values (t.arguments style values) :=
  ⟨t.order style, t.convert_sql style, fun _ _ h => t.arrange_supplied h,
    fun _ h => t.supplied_arguments style h⟩

/-- A literal that looks like a placeholder, a percent sign and two slots in all five styles. -/
example :
    ∃ t : Template, t.converted = "x%':n?' $1,$2" ∧
      Style.all.map t.sql =
        ["x%':n?' ?,?", "x%':n?' :1,:2", "x%':n?' :n,:m", "x%%':n?' %s,%s",
          "x%%':n?' %(n)s,%(m)s"] :=
  ⟨⟨[.plain 'x', .plain '%', .literal [':', 'n', '?'], .plain ' ', .slot ['n'], .plain ',',
      .slot ['m']], by decide, by decide, by decide⟩, by decide⟩

end Template

end PgClient.Placeholder
