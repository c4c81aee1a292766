/-
  PgClient.Proofs.Codec.ArrayLiteral

  The text form of arrays is read as it is written. An element may be spelled in
  quotes or, if it needs none, bare; whichever is chosen for each element, the
  reader finds the same elements. The encoder chooses one of these spellings, so
  arrays of texts and of integers come back as they were sent.
-/
import PgClient.Codec.Decoder
import PgClient.Codec.Encoder
import PgClient.Proofs.Codec.Text
import PgClient.Text.Integer.Lemmas

namespace PgClient.ArrayLiteral

open Steps

/-! ## Spellings -/

/-- The word for a missing element, in any letter case. -/
def IsNull (cs : List Char) : Prop := cs.map Char.toUpper = ['N', 'U', 'L', 'L']

instance : DecidablePred IsNull := fun cs =>
  inferInstanceAs (Decidable (cs.map Char.toUpper = ['N', 'U', 'L', 'L']))

/-- What means something in an array literal, or may be dropped around an element. -/
def special : List Char :=
  [',', '"', '\\', '\x7b', '\x7d', ' ', '\t', '\n', '\r', '\x0b', '\x0c']

/-- Text that may stand without quotes. -/
structure Bare (cs : List Char) : Prop where
  nonempty : cs ≠ []
  plain : ∀ c ∈ cs, c ∉ special
  notNull : ¬ IsNull cs

/-- The ways in which an element may be written. -/
inductive Spells : Element → List Char → Prop
  | null {word : List Char} (isNull : IsNull word) : Spells none word
  | quoted (cs : List Char) : Spells (some cs) (ArrayLiteral.quoted cs)
  | bare {cs : List Char} (isBare : Bare cs) : Spells (some cs) cs

/-- A literal with its elements written in these ways. -/
def literal (forms : List (List Char)) : List Char :=
  '\x7b' :: [','].intercalate forms ++ ['\x7d']

/-! ## One element -/

section Reading

variable {whole cs word : List Char} {item : Element} {form : List Char}

theorem elements_quote (read rest : List Char) :
    elements whole (.quoted read) ('"' :: rest) = elements whole (.closed read) rest := by
  cases rest <;> rfl

theorem elements_inside {c : Char} (hquote : c ≠ '"') (hbackslash : c ≠ '\\')
    (read rest : List Char) :
    elements whole (.quoted read) (c :: rest) = elements whole (.quoted (c :: read)) rest := by
  cases rest <;> simp [elements, hquote, hbackslash]

/-- In quotes the reader takes back the backslashes. -/
theorem elements_escaped (read rest : List Char) :
    elements whole (.quoted read)
        (cs.flatMap (fun c => if c = '"' || c = '\\' then ['\\', c] else [c]) ++ rest) =
      elements whole (.quoted (cs.reverse ++ read)) rest := by
  induction cs generalizing read with
  | nil => rfl
  | cons c cs ih =>
    rw [List.flatMap_cons, List.append_assoc, List.reverse_cons, List.append_assoc,
      List.singleton_append, ← ih (c :: read)]
    by_cases hc : (c = '"' || c = '\\') = true
    · rw [if_pos hc]
      rfl
    · rw [if_neg hc]
      rw [Bool.or_eq_true, decide_eq_true_eq, decide_eq_true_eq, not_or] at hc
      exact elements_inside hc.1 hc.2 read _

/-- A bare element goes on up to a comma. -/
theorem elements_bare (hcs : ',' ∉ cs) (read rest : List Char) :
    elements whole (.bare read) (cs ++ rest) =
      elements whole (.bare (cs.reverse ++ read)) rest := by
  induction cs generalizing read with
  | nil => rfl
  | cons c cs ih =>
    rw [List.mem_cons, not_or] at hcs
    rw [List.cons_append, elements, if_neg (Ne.symm hcs.1), ih hcs.2, List.reverse_cons,
      List.append_assoc, List.singleton_append]

/-- A word in front begins a bare element. -/
theorem elements_word (hempty : word ≠ []) (hcomma : ',' ∉ word) (hquote : '"' ∉ word)
    (rest : List Char) :
    elements whole .start (word ++ rest) = elements whole (.bare word.reverse) rest := by
  cases word with
  | nil => exact absurd rfl hempty
  | cons c cs =>
    rw [List.mem_cons, not_or] at hcomma hquote
    rw [List.cons_append, elements, if_neg (Ne.symm hquote.1), if_neg (Ne.symm hcomma.1),
      elements_bare hcomma.2, List.reverse_cons]

theorem bareElement_reverse (word : List Char) :
    bareElement word.reverse = if IsNull word then none else some word := by
  rw [bareElement, List.reverse_reverse]
  rfl

theorem IsNull.notMem {c : Char} (h : IsNull word)
    (hc : c.toUpper ∉ ['N', 'U', 'L', 'L']) : c ∉ word := by
  intro hmem
  rw [← h] at hc
  exact hc (List.mem_map_of_mem hmem)

/-- What the reader is in after an element, and what it makes of the two ways to go on. -/
structure Ends (whole : List Char) (item : Element) (mode : Mode) : Prop where
  last : elements whole mode [] = .ok [item]
  next (rest : List Char) :
    elements whole mode (',' :: rest) = (elements whole .start rest).map (item :: ·)

theorem ends_closed : Ends whole (some cs) (.closed cs.reverse) where
  last := by rw [elements, List.reverse_reverse]
  next rest := by rw [elements, if_pos rfl, List.reverse_reverse]

theorem ends_bare (hitem : bareElement word.reverse = item) :
    Ends whole item (.bare word.reverse) where
  last := by rw [elements, hitem]
  next rest := by rw [elements, if_pos rfl, hitem]

/-- An element is read, however it is written. -/
theorem elements_spelled (whole : List Char) (h : Spells item form) : ∃ mode, Ends whole item mode ∧
    ∀ rest, elements whole .start (form ++ rest) = elements whole mode rest := by
  cases h with
  | quoted cs =>
    refine ⟨.closed cs.reverse, ends_closed, fun rest => ?_⟩
    rw [quoted, List.cons_append, List.cons_append, List.append_assoc, elements, if_pos rfl,
      elements_escaped, List.append_nil]
    exact elements_quote _ _
  | null isNull =>
    refine ⟨.bare form.reverse, ends_bare ?_, elements_word ?_ ?_ ?_⟩
    · rw [bareElement_reverse, if_pos isNull]
    · rintro rfl
      cases isNull
    · exact isNull.notMem (by decide)
    · exact isNull.notMem (by decide)
  | bare isBare =>
    refine ⟨.bare form.reverse, ends_bare ?_, elements_word isBare.nonempty ?_ ?_⟩
    · rw [bareElement_reverse, if_neg isBare.notNull]
    · exact fun hmem => isBare.plain _ hmem (by decide)
    · exact fun hmem => isBare.plain _ hmem (by decide)

theorem Spells.ne_nil (h : Spells item form) : form ≠ [] := by
  cases h with
  | quoted cs => exact List.cons_ne_nil _ _
  | null isNull =>
    rintro rfl
    cases isNull
  | bare isBare => exact isBare.nonempty

end Reading

/-! ## A whole literal -/

/-- Elements with commas between them are read. -/
theorem elements_forms (whole : List Char) {item : Element} {items : List Element}
    {form : List Char} {forms : List (List Char)} (h : Spells item form)
    (hrest : List.Forall₂ Spells items forms) :
    elements whole .start ([','].intercalate (form :: forms)) = .ok (item :: items) := by
  obtain ⟨mode, hends, hread⟩ := elements_spelled whole h
  induction hrest generalizing item form mode with
  | nil =>
    rw [List.intercalate_singleton, ← List.append_nil form, hread, hends.last]
  | cons hnext _ ih =>
    obtain ⟨mode', hends', hread'⟩ := elements_spelled whole hnext
    rw [List.intercalate_cons_cons, List.append_assoc, hread, List.singleton_append, hends.next,
      ih hnext mode' hends' hread']
    rfl

theorem inside_literal (forms : List (List Char)) :
    inside? (literal forms) = some ([','].intercalate forms) := by
  rw [literal, List.cons_append, inside?]
  simp

/-- A literal is read as its elements, however they are written. -/
theorem read_literal {items : List Element} {forms : List (List Char)}
    (h : List.Forall₂ Spells items forms) : read (literal forms) = .ok items := by
  rw [read, inside_literal]
  cases h with
  | nil => rfl
  | @cons item form items forms hfirst hrest =>
    cases hinner : [','].intercalate (form :: forms) with
    | nil =>
      -- Only the empty array has nothing between its braces.
      cases forms with
      | nil => exact absurd (List.intercalate_singleton.symm.trans hinner) hfirst.ne_nil
      | cons => simp [List.intercalate_cons_cons] at hinner
    | cons c inner =>
      have helements := elements_forms (literal (form :: forms)) hfirst hrest
      rwa [hinner] at helements

/-! ## Arrays of values -/

/-- The element that stands for a value: null is missing, texts and integers are their text. -/
def asElement : Value → Element
  | .text s => some s.toList
  | v => v.integer?.map Integer.text

theorem toUpper_of_isDigit {c : Char} (hc : c.isDigit = true) : c.toUpper = c := by
  rw [Char.isDigit, Bool.and_eq_true, decide_eq_true_eq, decide_eq_true_eq] at hc
  refine dif_neg ?_
  rintro ⟨hlow, -⟩
  exact absurd (UInt32.le_trans hlow hc.2) (by decide)

/-- The digits of an integer need no quotes. -/
theorem bare_text (n : Int) : Bare (Integer.text n) := by
  have hspecial : ∀ c ∈ special, c ≠ '-' ∧ c.isDigit = false := by simp [special]
  refine ⟨Integer.text_ne_nil n, fun c hc hmem => ?_, fun hnull => ?_⟩
  · obtain ⟨hminus, hdigit⟩ := hspecial c hmem
    obtain h | h := Integer.mem_text hc
    · exact hminus h
    · rw [hdigit] at h
      cases h
  · -- No letter of the word for a missing element comes from a digit.
    have hletter : 'N' ∈ (Integer.text n).map Char.toUpper := by
      rw [hnull]
      exact List.mem_cons_self
    obtain ⟨c, hc, hupper⟩ := List.mem_map.1 hletter
    obtain rfl | hdigit := Integer.mem_text hc
    · exact absurd hupper (by decide)
    · rw [toUpper_of_isDigit hdigit] at hupper
      rw [hupper] at hdigit
      exact absurd hdigit (by decide)

theorem element_integer {v : Value} {n : Int} (hv : v.integer? = some n) :
    element v = .ok (Integer.text n) ∧ asElement v = some (Integer.text n) := by
  cases v with
  | int2 | int4 | int8 | int =>
    cases hv
    exact ⟨rfl, rfl⟩
  | _ => cases hv

/-- The encoder spells the elements of an array of texts or integers. -/
theorem spells_element {v : Value} {form : List Char}
    (hv : v = .null ∨ (∃ s, v = .text s) ∨ ∃ n, v.integer? = some n)
    (h : element v = .ok form) : Spells (asElement v) form := by
  obtain rfl | ⟨s, rfl⟩ | ⟨n, hn⟩ := hv
  · cases h
    exact .null rfl
  · cases h
    exact .quoted s.toList
  · obtain ⟨hform, helement⟩ := element_integer hn
    rw [hform] at h
    cases h
    exact helement ▸ .bare (bare_text n)

theorem write_eq_ok_iff {items : List Value} {text : List Char} :
    write items = .ok text ↔
      ∃ forms, List.Forall₂ (fun v form => element v = .ok form) items forms ∧
        text = literal forms := by
  rw [write, bind_eq_ok_iff]
  simp only [mapM_eq_ok_iff]
  refine exists_congr fun forms => and_congr_right fun _ => ?_
  exact ⟨fun h => (Except.ok.inj h).symm, fun h => h ▸ rfl⟩

theorem read_write {items : List Value} {text : List Char}
    (hitems : ∀ v ∈ items, v = .null ∨ (∃ s, v = .text s) ∨ ∃ n, v.integer? = some n)
    (h : write items = .ok text) : read text = .ok (items.map asElement) := by
  obtain ⟨forms, hforms, rfl⟩ := write_eq_ok_iff.1 h
  refine read_literal ?_
  clear h
  induction hforms with
  | nil => exact .nil
  | cons helement _ ih =>
    obtain ⟨hv, hrest⟩ := List.forall_mem_cons.1 hitems
    exact .cons (spells_element hv helement) (ih hrest)

/-- The bytes of an array hold the elements that stand for its items. -/
theorem elements_encoded {items : List Value} {ctx : CodecContext} {bs : Bytes}
    (hitems : ∀ v ∈ items, v = .null ∨ (∃ s, v = .text s) ∨ ∃ n, v.integer? = some n)
    (h : Encode.array (.array items) ctx = .ok bs) :
    Decode.elements bs ctx = .ok (items.map asElement) := by
  obtain ⟨text, htext, hbytes⟩ := bind_eq_ok_iff.1 h
  rw [Decode.elements, CodecContext.decodeText_encodeText hbytes]
  show (read (String.ofList text).toList).mapError _ = _
  rw [String.toList_ofList, read_write hitems htext]
  rfl

/-- An array of texts comes back as it was sent. -/
theorem textArray_encoded {items : List Value} {ctx : CodecContext} {bs : Bytes}
    (hitems : ∀ v ∈ items, v = .null ∨ ∃ s, v = .text s)
    (h : Encode.array (.array items) ctx = .ok bs) :
    Decode.textArray bs ctx = .ok (.array items) := by
  have hread : Decode.elements bs ctx = .ok (items.map asElement) :=
    elements_encoded (fun v hv => (hitems v hv).imp_right .inl) h
  have hsame : (items.map asElement).map Decode.textElement = items.map id := by
    rw [List.map_map]
    refine List.map_congr_left fun v hv => ?_
    obtain rfl | ⟨s, rfl⟩ := hitems v hv
    · rfl
    · exact congrArg Value.text s.ofList_toList
  rw [Decode.textArray, hread]
  show Except.ok (Value.array _) = _
  rw [hsame, List.map_id]

/-! ## Arrays of integers -/

/-- What an integer of any width is read as, or null. -/
def Widens (v read : Value) : Prop :=
  v = .null ∧ read = .null ∨ ∃ n : Int64, v.integer? = some n.toInt ∧ read = .int8 n

/-- Every integer value fits the widest. -/
theorem exists_int64 {v : Value} {n : Int} (h : v.integer? = some n) :
    ∃ m : Int64, n = m.toInt := by
  cases v with
  | int2 m => exact ⟨m.toInt64, by rw [Int16.toInt_toInt64]; exact (Option.some.inj h).symm⟩
  | int4 m => exact ⟨m.toInt64, by rw [Int32.toInt_toInt64]; exact (Option.some.inj h).symm⟩
  | int8 m | int m => exact ⟨m, (Option.some.inj h).symm⟩
  | _ => cases h

theorem widens_element {v : Value} (hv : v = .null ∨ ∃ n, v.integer? = some n) :
    ∃ read, Decode.integerElement (asElement v) = .ok read ∧ Widens v read := by
  obtain rfl | ⟨n, hn⟩ := hv
  · exact ⟨.null, rfl, .inl ⟨rfl, rfl⟩⟩
  · obtain ⟨m, rfl⟩ := exists_int64 hn
    refine ⟨.int8 m, ?_, .inr ⟨m, hn, rfl⟩⟩
    rw [(element_integer hn).2, Decode.integerElement,
      Integer.readInt64_spelled (Integer.spells_text _)]

/-- Besides its elements a literal has braces and commas. -/
theorem mem_literal {forms : List (List Char)} {c : Char} (hc : c ∈ literal forms) :
    c ∈ ['\x7b', ',', '\x7d'] ∨ ∃ form ∈ forms, c ∈ form := by
  have hinner : ∀ forms : List (List Char), c ∈ [','].intercalate forms →
      c = ',' ∨ ∃ form ∈ forms, c ∈ form := by
    intro forms
    induction forms with
    | nil => exact fun h => absurd h List.not_mem_nil
    | cons form forms ih =>
      cases forms with
      | nil =>
        rw [List.intercalate_singleton]
        exact fun h => .inr ⟨form, List.mem_cons_self, h⟩
      | cons next forms =>
        rw [List.intercalate_cons_cons, List.append_assoc, List.mem_append, List.mem_append,
          List.mem_singleton]
        rintro (h | h | h)
        · exact .inr ⟨form, List.mem_cons_self, h⟩
        · exact .inl h
        · refine (ih h).imp_right fun ⟨other, hother, hmem⟩ => ?_
          exact ⟨other, List.mem_cons_of_mem _ hother, hmem⟩
  rw [literal, List.mem_append, List.mem_cons, List.mem_singleton] at hc
  obtain (rfl | hc) | rfl := hc
  · exact .inl (by decide)
  · obtain rfl | hform := hinner forms hc
    · exact .inl (by decide)
    · exact .inr hform
  · exact .inl (by decide)

/-- Integers and nulls are written in characters that every encoding has. -/
theorem element_latin1 {v : Value} (hv : v = .null ∨ ∃ n, v.integer? = some n) :
    ∃ form, element v = .ok form ∧ ∀ c ∈ form, CodecContext.aboveLatin1 c = false := by
  obtain rfl | ⟨n, hn⟩ := hv
  · exact ⟨_, rfl, by simp [CodecContext.aboveLatin1]⟩
  · refine ⟨Integer.text n, (element_integer hn).1, fun c hc => ?_⟩
    obtain rfl | hdigit := Integer.mem_text hc
    · decide
    · rw [Char.isDigit, Bool.and_eq_true, decide_eq_true_eq, decide_eq_true_eq] at hdigit
      have hc : c.toNat ≤ 57 := hdigit.2
      exact decide_eq_false (by omega)

/-- An array of integers is written in every encoding, and each of them comes back. -/
theorem intArray_encoded {items : List Value} (ctx : CodecContext)
    (hitems : ∀ v ∈ items, v = .null ∨ ∃ n, v.integer? = some n) :
    ∃ bs reads, Encode.array (.array items) ctx = .ok bs ∧
      Decode.intArray bs ctx = .ok (.array reads) ∧ List.Forall₂ Widens items reads := by
  obtain ⟨forms, hforms, hlatin1⟩ :=
    exists_mapM_eq_ok fun v hv => element_latin1 (hitems v hv)
  have hplain : ∀ form ∈ forms, ∀ c ∈ form, CodecContext.aboveLatin1 c = false := by
    clear hforms
    induction hlatin1 with
    | nil => exact fun _ h => absurd h List.not_mem_nil
    | cons hform _ ih =>
      exact List.forall_mem_cons.2 ⟨hform, ih (List.forall_mem_cons.1 hitems).2⟩
  have hmarks : ∀ c ∈ ['\x7b', ',', '\x7d'], CodecContext.aboveLatin1 c = false := by
    simp [CodecContext.aboveLatin1]
  have hchars : ∀ c ∈ (String.ofList (literal forms)).toList,
      CodecContext.aboveLatin1 c = false := by
    intro c hc
    rw [String.toList_ofList] at hc
    obtain hc | ⟨form, hform, hc⟩ := mem_literal hc
    · exact hmarks c hc
    · exact hplain form hform c hc
  obtain ⟨bs, hbytes⟩ := CodecContext.encodeText_of_latin1 hchars
  have hencoded : Encode.array (.array items) ctx = .ok bs := by
    rw [Encode.array, write_eq_ok_iff.2 ⟨forms, mapM_eq_ok_iff.1 hforms, rfl⟩]
    exact hbytes
  obtain ⟨reads, hreads, hwidens⟩ := exists_mapM_eq_ok fun v hv => widens_element (hitems v hv)
  refine ⟨bs, reads, hencoded, ?_, hwidens⟩
  rw [Decode.intArray, elements_encoded (fun v hv => (hitems v hv).imp_right .inr) hencoded]
  show ((items.map asElement).mapM Decode.integerElement >>= _) = _
  rw [List.mapM_map, Function.comp_def, hreads]
  rfl

/-- A literal is read as its elements, whichever spelling each of them has; in every encoding an
array of texts and nulls that is written comes back as it was, and an array of integers and nulls is
written and comes back with the same numbers in the widest type. -/
theorem arrays_read_back :
    (∀ items forms, List.Forall₂ Spells items forms → read (literal forms) = .ok items) ∧
      (∀ (items : List Value) (ctx : CodecContext) (bs : Bytes),
        (∀ v ∈ items, v = .null ∨ ∃ s, v = .text s) → Encode.array (.array items) ctx = .ok bs →
          Decode.textArray bs ctx = .ok (.array items)) ∧
      ∀ (items : List Value) (ctx : CodecContext),
        (∀ v ∈ items, v = .null ∨ ∃ n, v.integer? = some n) →
          ∃ bs reads, Encode.array (.array items) ctx = .ok bs ∧
            Decode.intArray bs ctx = .ok (.array reads) ∧ List.Forall₂ Widens items reads :=
  ⟨fun _ _ => read_literal, fun _ _ _ => textArray_encoded, fun _ ctx => intArray_encoded ctx⟩

/-- All three spellings, texts that look like null or like two elements, and three widths. -/
theorem arrays_read_back_mixed :
    read (literal [['n', 'u', 'l', 'l'], quoted ['a', ',', '"'], ['b']]) =
        .ok [none, some ['a', ',', '"'], some ['b']] ∧
      (∃ bs, Encode.array (.array [.null, .text "NULL", .text "é,\\"]) { encoding := .latin1 } =
          .ok bs ∧
        Decode.textArray bs { encoding := .latin1 } =
          .ok (.array [.null, .text "NULL", .text "é,\\"])) ∧
      ∃ bs reads, Encode.array (.array [.int2 (-3), .null, .int 5000000000]) {} = .ok bs ∧
        Decode.intArray bs {} = .ok (.array reads) ∧
          List.Forall₂ Widens [.int2 (-3), .null, .int 5000000000] reads := by
  have hbare : Bare ['b'] := ⟨by decide, by simp [special], by decide⟩
  have hforms : List.Forall₂ Spells [none, some ['a', ',', '"'], some ['b']]
      [['n', 'u', 'l', 'l'], quoted ['a', ',', '"'], ['b']] :=
    .cons (.null (by decide)) (.cons (.quoted _) (.cons (.bare hbare) .nil))
  refine ⟨arrays_read_back.1 _ _ hforms, ⟨_, rfl, ?_⟩, arrays_read_back.2.2 _ _ ?_⟩
  · exact arrays_read_back.2.1 [.null, .text "NULL", .text "é,\\"] _ _ (by simp) rfl
  · simp [Value.integer?]

end PgClient.ArrayLiteral
