/-
  PgClient.Proofs.Codec.Table

  The type that a parameter is declared with against the bytes that are sent for
  it. Values of fixed binary form are sent in every context and read back by the
  decoder of their declared type; of all the others that have an encoder only the
  texts can fail, for the want of a character in LATIN1.
-/
import PgClient.Proofs.Codec.ArrayLiteral
import PgClient.Proofs.Codec.Datetimes

namespace PgClient

open Steps

/-! ## Integer types -/

/-- The types of integers on the server. -/
inductive IntegerType where
  | int2
  | int4
  | int8

namespace IntegerType

def oid : IntegerType → Oid
  | int2 => .int2
  | int4 => .int4
  | int8 => .int8

def kind : IntegerType → Kind
  | int2 => .int2
  | int4 => .int4
  | int8 => .int8

/-- The bytes of a number. -/
def width : IntegerType → Nat
  | int2 => 2
  | int4 => 4
  | int8 => 8

/-- The number fits the bytes, one bit of which is its sign. -/
def Holds (t : IntegerType) (n : Int) : Prop :=
  -2 ^ (8 * t.width - 1) ≤ n ∧ n < 2 ^ (8 * t.width - 1)

/-- The type holds the number, and no narrower one does. -/
def Narrowest (t : IntegerType) (n : Int) : Prop :=
  t.Holds n ∧ ∀ t' : IntegerType, t'.Holds n → t.width ≤ t'.width

/-- The bytes that a number of the type is sent in. -/
def bytes : IntegerType → Int → Bytes
  | int2, n => Bytes.ofInt16 (Int16.ofInt n)
  | int4, n => Bytes.ofInt32 (Int32.ofInt n)
  | int8, n => Bytes.ofInt64 (Int64.ofInt n)

/-- The value of the type for a number. -/
def value : IntegerType → Int → Value
  | int2, n => .int2 (Int16.ofInt n)
  | int4, n => .int4 (Int32.ofInt n)
  | int8, n => .int8 (Int64.ofInt n)

variable {n : Int}

theorem holds_int2 : int2.Holds n ↔ -32768 ≤ n ∧ n ≤ 32767 := by
  show -2 ^ 15 ≤ n ∧ n < 2 ^ 15 ↔ _
  omega

theorem holds_int4 : int4.Holds n ↔ -2147483648 ≤ n ∧ n ≤ 2147483647 := by
  show -2 ^ 31 ≤ n ∧ n < 2 ^ 31 ↔ _
  omega

theorem holds_int8 (n : Int64) : int8.Holds n.toInt := ⟨n.le_toInt, n.toInt_lt⟩

theorem kind_value (t : IntegerType) (n : Int) : (t.value n).kind = t.kind := by
  cases t <;> rfl

theorem integer?_value {t : IntegerType} (h : t.Holds n) : (t.value n).integer? = some n := by
  obtain ⟨hlow, hhigh⟩ := h
  cases t with
  | int2 => exact congrArg some (Int16.toInt_ofInt_of_le hlow hhigh)
  | int4 => exact congrArg some (Int32.toInt_ofInt_of_le hlow hhigh)
  | int8 => exact congrArg some (Int64.toInt_ofInt_of_le hlow hhigh)

end IntegerType

/-! ## Fixed binary forms -/

/-- The kinds of values with a fixed binary form. -/
def binaryKinds : List Kind := [.bool, .int2, .int4, .int8, .int, .float4, .float8, .bytea, .uuid]

/-- What comes back of a value that was declared with a type: the value, but for an integer
without a width one of the narrowest type, which is the declared one. -/
inductive Returned : Value → Oid → Value → Prop
  | same {v : Value} (o : Oid) (h : v.kind ≠ .int) : Returned v o v
  | narrowed {n : Int64} {t : IntegerType} {w : Value} (hnarrowest : t.Narrowest n.toInt)
      (hkind : w.kind = t.kind) (hnumber : w.integer? = some n.toInt) :
      Returned (.int n) t.oid w

section Decoders

variable (ctx : CodecContext)

/-- A word of its type's width is read as what it was written for. -/
theorem Decode.fixed_word {α : Type} {width : Nat} {type : String} (write : α → Bytes)
    (read : Bytes → α) (value : α → Value) (hlength : ∀ a, (write a).length = width)
    (hread : ∀ a, read (write a) = a) (a : α) :
    (do return value (read (← Decode.fixed width type (write a)))) = Except.ok (value a) := by
  rw [Decode.fixed_eq_ok_iff.2 ⟨hlength a, rfl⟩]
  show Except.ok (value (read (write a))) = _
  rw [hread]

theorem Decode.bool_byte (b : Bool) :
    Decode.bool [if b then 1 else 0] ctx = .ok (.bool b) := by
  cases b <;> rfl

theorem Decode.int2_ofInt16 (n : Int16) : Decode.int2 (Bytes.ofInt16 n) ctx = .ok (.int2 n) :=
  Decode.fixed_word Bytes.ofInt16 Bytes.toInt16 .int2 (fun _ => Bytes.length_bigEndian _ _)
    Bytes.toInt16_ofInt16 n

theorem Decode.int4_ofInt32 (n : Int32) : Decode.int4 (Bytes.ofInt32 n) ctx = .ok (.int4 n) :=
  Decode.fixed_word Bytes.ofInt32 Bytes.toInt32 .int4 (fun _ => Bytes.length_bigEndian _ _)
    Bytes.toInt32_ofInt32 n

theorem Decode.int8_ofInt64 (n : Int64) : Decode.int8 (Bytes.ofInt64 n) ctx = .ok (.int8 n) :=
  Decode.fixed_word Bytes.ofInt64 Bytes.toInt64 .int8 (fun _ => Bytes.length_bigEndian _ _)
    Bytes.toInt64_ofInt64 n

theorem Decode.float4_ofUInt32 (bits : UInt32) :
    Decode.float4 (Bytes.ofUInt32 bits) ctx = .ok (.float4 bits) :=
  Decode.fixed_word Bytes.ofUInt32 Bytes.toUInt32 .float4 (fun _ => Bytes.length_bigEndian _ _)
    Bytes.toUInt32_ofUInt32 bits

theorem Decode.float8_ofUInt64 (bits : UInt64) :
    Decode.float8 (Bytes.ofUInt64 bits) ctx = .ok (.float8 bits) :=
  Decode.fixed_word Bytes.ofUInt64 Bytes.toUInt64 .float8 (fun _ => Bytes.length_bigEndian _ _)
    Bytes.toUInt64_ofUInt64 bits

theorem Decode.uuid_bytes (u : Uuid) : Decode.uuid u.bytes ctx = .ok (.uuid u) :=
  dif_pos u.length_eq

end Decoders

namespace CodecTable

/-- The value is sent in every context with a declared type and format, and the decoder of that
type has the format and reads the value back. -/
def ReadsBack (v : Value) : Prop :=
  ∃ e, standard.inspect v = .ok e ∧ (standard.lookup e.oid).format = e.format ∧
    ∀ ctx, ∃ bs w, e.encode v ctx = .ok bs ∧ (standard.lookup e.oid).decode bs ctx = .ok w ∧
      Returned v e.oid w

theorem decode_bytes (t : IntegerType) (n : Int) (ctx : CodecContext) :
    (standard.lookup t.oid).decode (t.bytes n) ctx = .ok (t.value n) := by
  cases t with
  | int2 => exact Decode.int2_ofInt16 ctx _
  | int4 => exact Decode.int4_ofInt32 ctx _
  | int8 => exact Decode.int8_ofInt64 ctx _

/-- The inspector and the encoder choose the same type for an integer without a width. -/
theorem exists_narrowest (n : Int64) :
    ∃ t : IntegerType, t.Narrowest n.toInt ∧
      standard.inspect (.int n) = .ok ⟨t.oid, .binary, Encode.int⟩ ∧
      Encode.narrowest n = t.bytes n.toInt := by
  have hinspect : standard.inspect (.int n) = .ok ⟨
      if -32768 ≤ n.toInt ∧ n.toInt ≤ 32767 then .int2
      else if -2147483648 ≤ n.toInt ∧ n.toInt ≤ 2147483647 then .int4 else .int8,
      .binary, Encode.int⟩ := rfl
  -- Each type that does not hold the number is refused by the same bounds on both sides.
  by_cases h2 : -32768 ≤ n.toInt ∧ n.toInt ≤ 32767
  · refine ⟨.int2, ⟨IntegerType.holds_int2.2 h2, ?_⟩, ?_, ?_⟩
    · intro t _
      cases t <;> decide
    · rw [hinspect, if_pos h2]
      rfl
    · rw [Encode.narrowest, if_pos h2]
      rfl
  by_cases h4 : -2147483648 ≤ n.toInt ∧ n.toInt ≤ 2147483647
  · refine ⟨.int4, ⟨IntegerType.holds_int4.2 h4, ?_⟩, ?_, ?_⟩
    · intro t ht
      cases t with
      | int2 => exact absurd (IntegerType.holds_int2.1 ht) h2
      | int4 | int8 => decide
    · rw [hinspect, if_neg h2, if_pos h4]
      rfl
    · rw [Encode.narrowest, if_neg h2, if_pos h4]
      rfl
  · refine ⟨.int8, ⟨IntegerType.holds_int8 n, ?_⟩, ?_, ?_⟩
    · intro t ht
      cases t with
      | int2 => exact absurd (IntegerType.holds_int2.1 ht) h2
      | int4 => exact absurd (IntegerType.holds_int4.1 ht) h4
      | int8 => decide
    · rw [hinspect, if_neg h2, if_neg h4]
      rfl
    · rw [Encode.narrowest, if_neg h2, if_neg h4, IntegerType.bytes, Int64.ofInt_toInt]

theorem readsBack_int (n : Int64) : ReadsBack (.int n) := by
  obtain ⟨t, hnarrowest, hinspect, hbytes⟩ := exists_narrowest n
  have hformat : (standard.lookup t.oid).format = .binary := by cases t <;> rfl
  have hencode : Encode.int (.int n) = fun _ => .ok (t.bytes n.toInt) := by
    rw [← hbytes]
    rfl
  refine ⟨_, hinspect, hformat, fun ctx => ⟨t.bytes n.toInt, t.value n.toInt, ?_, ?_, ?_⟩⟩
  · exact congrFun hencode ctx
  · exact decode_bytes t n.toInt ctx
  · exact .narrowed hnarrowest (t.kind_value _) (IntegerType.integer?_value hnarrowest.1)

theorem readsBack_same {v : Value} {e : ParamEncoder} {bs : Bytes}
    (hinspect : standard.inspect v = .ok e)
    (hformat : (standard.lookup e.oid).format = e.format) (hencode : ∀ ctx, e.encode v ctx = .ok bs)
    (hdecode : ∀ ctx, (standard.lookup e.oid).decode bs ctx = .ok v) (hkind : v.kind ≠ .int) :
    ReadsBack v :=
  ⟨e, hinspect, hformat, fun ctx => ⟨bs, v, hencode ctx, hdecode ctx, .same e.oid hkind⟩⟩

theorem readsBack_of_binary {v : Value} (h : v.kind ∈ binaryKinds) : ReadsBack v := by
  cases v with
  | bool b => exact readsBack_same rfl rfl (fun _ => rfl) (Decode.bool_byte · b) nofun
  | int2 n => exact readsBack_same rfl rfl (fun _ => rfl) (Decode.int2_ofInt16 · n) nofun
  | int4 n => exact readsBack_same rfl rfl (fun _ => rfl) (Decode.int4_ofInt32 · n) nofun
  | int8 n => exact readsBack_same rfl rfl (fun _ => rfl) (Decode.int8_ofInt64 · n) nofun
  | int n => exact readsBack_int n
  | float4 w => exact readsBack_same rfl rfl (fun _ => rfl) (Decode.float4_ofUInt32 · w) nofun
  | float8 w => exact readsBack_same rfl rfl (fun _ => rfl) (Decode.float8_ofUInt64 · w) nofun
  | bytea bs => exact readsBack_same rfl rfl (fun _ => rfl) (fun _ => rfl) nofun
  | uuid u => exact readsBack_same rfl rfl (fun _ => rfl) (Decode.uuid_bytes · u) nofun
  | _ => simp [binaryKinds, Value.kind] at h

/-! ## Arrays -/

/-- What the elements of an array are that an inspector takes. -/
inductive ElementType where
  | integer
  | float
  | text

namespace ElementType

/-- The type that the array is declared with. -/
def oid : ElementType → Oid
  | integer => .int8Array
  | float => .float8Array
  | text => .textArray

/-- The values that are such elements. -/
def test : ElementType → Value → Bool
  | integer, v => v.integer?.isSome
  | float, v => v.isFloat
  | text, v => v.isText

/-- The encoder of an array that is declared with the type. -/
def encoder (t : ElementType) : ParamEncoder := ⟨t.oid, .text, Encode.array⟩

/-- A value is an element of one type at most. -/
theorem test_unique {t t' : ElementType} {v : Value} (h : t.test v = true)
    (h' : t'.test v = true) : t = t' := by
  cases v <;> cases t <;> cases t' <;>
    simp [test, Value.integer?, Value.isFloat, Value.isText, Value.kind] at h h' ⊢

/-- The encoder takes what an inspector takes for an element. -/
theorem exists_element {t : ElementType} {v : Value} (h : t.test v = true) :
    ∃ form, ArrayLiteral.element v = .ok form := by
  cases v with
  | text | float4 | float8 | int2 | int4 | int8 | int => exact ⟨_, rfl⟩
  | _ =>
    cases t <;> simp [test, Value.integer?, Value.isFloat, Value.isText, Value.kind] at h

end ElementType

theorem eq_null_of_isNull {v : Value} (h : v.isNull = true) : v = .null := by
  cases v with
  | null => rfl
  | _ => cases h

/-- The inspector asks for one value at least, and that all of them are elements of one type. -/
theorem inspectArray_eq_some_iff {items : List Value} {e : ParamEncoder} :
    inspectArray (.array items) = some e ↔
      ∃ t : ElementType, e = t.encoder ∧ (∃ v ∈ items, v.isNull = false) ∧
        ∀ v ∈ items, v.isNull = false → t.test v = true := by
  have hpresent : ∀ v, v ∈ items ∧ v.isNull = false ↔ v ∈ items.filter (fun v => !v.isNull) := by
    intro v
    rw [List.mem_filter, Bool.not_eq_true']
  simp only [← and_imp, hpresent]
  unfold inspectArray
  dsimp only
  cases items.filter fun v => !v.isNull with
  | nil => exact ⟨nofun, fun ⟨_, _, ⟨v, hv⟩, _⟩ => absurd hv List.not_mem_nil⟩
  | cons v rest =>
    have htyped : ∀ t : ElementType,
        (if (v :: rest).all t.test = true then some t.encoder else none) = some e →
          ∃ t : ElementType, e = t.encoder ∧ (∃ w, w ∈ v :: rest) ∧
            ∀ w ∈ v :: rest, t.test w = true := by
      intro t h
      rw [Option.ite_none_right_eq_some] at h
      obtain ⟨hall, h⟩ := h
      exact ⟨t, (Option.some.inj h).symm, ⟨v, List.mem_cons_self⟩, List.all_eq_true.1 hall⟩
    constructor
    · -- The first element that is not null has chosen the test.
      intro h
      dsimp only at h
      split at h
      · exact htyped .integer h
      · split at h
        · exact htyped .float h
        · split at h
          · exact htyped .text h
          · cases h
    · rintro ⟨t, rfl, -, hall⟩
      have hv := hall v List.mem_cons_self
      have hfirst : ∀ t', t' ≠ t → ¬ t'.test v = true :=
        fun t' hne h => hne (ElementType.test_unique h hv)
      have hrest : (v :: rest).all t.test = true := List.all_eq_true.2 hall
      cases t with
      | integer => exact (if_pos hv).trans (if_pos hrest)
      | float => exact (if_neg (hfirst .integer nofun)).trans ((if_pos hv).trans (if_pos hrest))
      | text =>
        exact (if_neg (hfirst .integer nofun)).trans
          ((if_neg (hfirst .float nofun)).trans ((if_pos hv).trans (if_pos hrest)))

/-- An array that the inspector takes has a text form. -/
theorem encode_of_inspectArray {items : List Value} {e : ParamEncoder}
    (h : inspectArray (.array items) = some e) :
    e.encode = Encode.array ∧ ∃ cs, ArrayLiteral.write items = .ok cs := by
  obtain ⟨t, rfl, -, hall⟩ := inspectArray_eq_some_iff.1 h
  have hitems : ∀ v ∈ items, ∃ form, ArrayLiteral.element v = .ok form ∧ True := by
    intro v hv
    cases hnull : v.isNull with
    | true => exact eq_null_of_isNull hnull ▸ ⟨_, rfl, trivial⟩
    | false =>
      obtain ⟨form, hform⟩ := ElementType.exists_element (hall v hv hnull)
      exact ⟨form, hform, trivial⟩
  obtain ⟨forms, hforms, -⟩ := exists_mapM_eq_ok hitems
  exact ⟨rfl, _, ArrayLiteral.write_eq_ok_iff.2 ⟨forms, mapM_eq_ok_iff.1 hforms, rfl⟩⟩

/-- Of the inspectors only that of arrays looks at an array. -/
theorem inspect_array (items : List Value) :
    standard.inspect (.array items) =
      (inspectArray (.array items)).elim (.error (.notMapped .array)) .ok := by
  have hexact : standard.exact.lookup (Value.array items).kind = none := rfl
  have hinspectors : (standard.inspectors.findSome? fun inspector => inspector (.array items)) =
      inspectArray (.array items) := by
    show [inspectArray].findSome? (fun inspector => inspector (.array items)) = _
    rw [List.findSome?_cons, List.findSome?_nil]
    cases inspectArray (.array items) <;> rfl
  rw [CodecTable.inspect, hexact]
  dsimp only
  rw [hinspectors]
  cases inspectArray (.array items) <;> rfl

/-! ## Texts -/

/-- The text that a value is sent as. -/
inductive Sends : Value → String → Prop
  | text (s : String) : Sends (.text s) s
  | numeric (s : String) : Sends (.numeric s) s
  | json (j : Json) : Sends (.json j) (Json.text j)
  | array {items : List Value} {cs : List Char} (h : ArrayLiteral.write items = .ok cs) :
      Sends (.array items) (String.ofList cs)

theorem Sends.unique {v : Value} {s s' : String} (h : Sends v s) (h' : Sends v s') : s = s' := by
  cases h with
  | text | numeric | json => cases h'; rfl
  | array h =>
    cases h' with
    | array h' => rw [Except.ok.inj (h.symm.trans h')]

/-- A value with an encoder is sent as a text, or else in bytes that are always there. -/
theorem encode_cases {v : Value} {e : ParamEncoder} (h : standard.inspect v = .ok e)
    (ctx : CodecContext) :
    (∃ text, Sends v text ∧ e.encode v ctx = ctx.encodeText text) ∨
      (∀ text, ¬ Sends v text) ∧ ∃ bs, e.encode v ctx = .ok bs := by
  cases v with
  | array items =>
    rw [inspect_array] at h
    cases harray : inspectArray (.array items) with
    | none =>
      rw [harray] at h
      cases h
    | some chosen =>
      rw [harray] at h
      cases h
      obtain ⟨hencode, cs, hcs⟩ := encode_of_inspectArray harray
      refine .inl ⟨_, .array hcs, ?_⟩
      rw [hencode, Encode.array, hcs]
      rfl
  | text s | numeric s | json j =>
    cases h
    exact .inl ⟨_, by constructor, rfl⟩
  | date d =>
    cases h
    exact .inr ⟨by rintro _ ⟨⟩, _, @Encode.date_date ctx d⟩
  | time t =>
    cases h
    exact .inr ⟨by rintro _ ⟨⟩, _, rfl⟩
  | timestamp m =>
    cases h
    exact .inr ⟨by rintro _ ⟨⟩, _, Encode.timestamp_moment (.inl rfl)⟩
  | timestamptz m =>
    cases h
    exact .inr ⟨by rintro _ ⟨⟩, _, Encode.timestamp_moment (.inr rfl)⟩
  | _ =>
    cases h
    exact .inr ⟨by rintro _ ⟨⟩, _, rfl⟩

/-- Only a text can fail, in LATIN1, and for its first character above U+00FF. -/
theorem encode_eq_error_iff {v : Value} {e : ParamEncoder} (h : standard.inspect v = .ok e)
    (ctx : CodecContext) (err : Error) :
    e.encode v ctx = .error err ↔ ctx.encoding = .latin1 ∧ ∃ text c, Sends v text ∧
      text.toList.find? CodecContext.aboveLatin1 = some c ∧ err = .data (.notLatin1 c) := by
  obtain ⟨text, htext, hencode⟩ | ⟨hnone, bs, hencode⟩ := encode_cases h ctx
  · rw [hencode, CodecContext.encodeText_eq_error_iff]
    refine and_congr_right fun _ => ⟨fun ⟨c, hc, herr⟩ => ⟨text, c, htext, hc, herr⟩, ?_⟩
    rintro ⟨text', c, htext', hc, herr⟩
    obtain rfl := htext.unique htext'
    exact ⟨c, hc, herr⟩
  · rw [hencode]
    constructor
    · intro herr
      cases herr
    · rintro ⟨-, text, -, htext, -⟩
      exact absurd htext (hnone text)

/-- Values of a fixed binary form are sent in every context, in the format that the decoder of
their declared type has, and that decoder reads them back. The encoder that any value is given
fails only in LATIN1, for a character of the text to send: none of them meets a value of a kind
that it does not take, or one that is out of range. -/
theorem parameters_sent :
    (∀ v : Value, v.kind ∈ binaryKinds → ReadsBack v) ∧
      ∀ (v : Value) (e : ParamEncoder) (ctx : CodecContext) (err : Error),
        standard.inspect v = .ok e →
          (e.encode v ctx = .error err ↔ ctx.encoding = .latin1 ∧ ∃ text c, Sends v text ∧
            text.toList.find? CodecContext.aboveLatin1 = some c ∧ err = .data (.notLatin1 c)) :=
  ⟨fun _ => readsBack_of_binary, fun _ _ ctx err h => encode_eq_error_iff h ctx err⟩

/-- A number just beyond two bytes, and an array whose last text has a euro sign. -/
theorem parameters_sent_mixed :
    ReadsBack (.int 32768) ∧
      ∃ e, standard.inspect (.array [.null, .text "a", .text "€"]) = .ok e ∧
        e.encode (.array [.null, .text "a", .text "€"]) { encoding := .latin1 } =
          .error (.data (.notLatin1 '€')) := by
  refine ⟨parameters_sent.1 _ (by decide), _, rfl, ?_⟩
  refine (parameters_sent.2 _ _ _ _ rfl).2 ⟨rfl, _, _, .array rfl, ?_, rfl⟩
  rw [String.toList_ofList]
  decide

end CodecTable

end PgClient
