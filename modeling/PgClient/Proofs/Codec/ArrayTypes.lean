/-
  PgClient.Proofs.Codec.ArrayTypes

  The type that an array is declared with against what a column of that type gives
  back. Arrays of integers and of texts come back as arrays that are declared with
  the same type again. That of floats has an encoder and no decoder: its literal
  comes back as a text.
-/
import PgClient.Proofs.Codec.Table

namespace PgClient.CodecTable

open Steps

variable {items : List Value} {e : ParamEncoder} {ctx : CodecContext} {bs : Bytes}

/-- What came back for the items is an array of as many, null in the same places, that would be
declared with the type. -/
def Echoes (items : List Value) (oid : Oid) (w : Value) : Prop :=
  ∃ reads e, w = .array reads ∧ reads.map Value.isNull = items.map Value.isNull ∧
    standard.inspect (.array reads) = .ok e ∧ e.oid = oid

theorem inspect_array_eq_ok_iff :
    standard.inspect (.array items) = .ok e ↔
      ∃ t : ElementType, e = t.encoder ∧ (∃ v ∈ items, v.isNull = false) ∧
        ∀ v ∈ items, v.isNull = false → t.test v = true := by
  rw [← inspectArray_eq_some_iff, inspect_array]
  cases inspectArray (.array items) with
  | none => exact ⟨nofun, nofun⟩
  | some chosen =>
    rw [Option.some.injEq]
    exact ⟨Except.ok.inj, congrArg Except.ok⟩

/-! ## Integers and texts -/

/-- Integers come back as integers of the widest type, and only nulls as nulls. -/
theorem widens_isNull {v read : Value} (h : ArrayLiteral.Widens v read) :
    read.isNull = v.isNull ∧ (read.isNull = false → ElementType.integer.test read = true) := by
  obtain ⟨rfl, rfl⟩ | ⟨n, hn, rfl⟩ := h
  · exact ⟨rfl, nofun⟩
  · refine ⟨?_, fun _ => rfl⟩
    cases v with
    | null => cases hn
    | _ => rfl

theorem echoes_of_widens {reads : List Value} (hpresent : ∃ v ∈ items, v.isNull = false)
    (h : List.Forall₂ ArrayLiteral.Widens items reads) :
    Echoes items ElementType.integer.oid (.array reads) := by
  have hnulls : reads.map Value.isNull = items.map Value.isNull ∧
      ∀ read ∈ reads, read.isNull = false → ElementType.integer.test read = true := by
    clear hpresent
    induction h with
    | nil => exact ⟨rfl, fun _ h => absurd h List.not_mem_nil⟩
    | cons hread _ ih =>
      obtain ⟨hnull, htest⟩ := widens_isNull hread
      refine ⟨?_, List.forall_mem_cons.2 ⟨htest, ih.2⟩⟩
      rw [List.map_cons, List.map_cons, hnull, ih.1]
  obtain ⟨hmap, htest⟩ := hnulls
  refine ⟨reads, _, rfl, hmap, inspect_array_eq_ok_iff.2 ⟨.integer, rfl, ?_, htest⟩, rfl⟩
  -- The places of the nulls tell that some item is none.
  have hfalse : false ∈ reads.map Value.isNull := by
    rw [hmap]
    exact List.mem_map.2 hpresent
  exact List.mem_map.1 hfalse

theorem integers_echoed (hpresent : ∃ v ∈ items, v.isNull = false)
    (hitems : ∀ v ∈ items, v.isNull = false → ElementType.integer.test v = true)
    (hencode : Encode.array (.array items) ctx = .ok bs) :
    ∃ w, Decode.intArray bs ctx = .ok w ∧ Echoes items ElementType.integer.oid w := by
  have hintegers : ∀ v ∈ items, v = .null ∨ ∃ n, v.integer? = some n := by
    intro v hv
    cases hnull : v.isNull with
    | true => exact .inl (eq_null_of_isNull hnull)
    | false => exact .inr (Option.isSome_iff_exists.1 (hitems v hv hnull))
  obtain ⟨bs', reads, hencode', hdecode, hwidens⟩ := ArrayLiteral.intArray_encoded ctx hintegers
  obtain rfl := Except.ok.inj (hencode.symm.trans hencode')
  exact ⟨_, hdecode, echoes_of_widens hpresent hwidens⟩

theorem texts_echoed (hpresent : ∃ v ∈ items, v.isNull = false)
    (hitems : ∀ v ∈ items, v.isNull = false → ElementType.text.test v = true)
    (hencode : Encode.array (.array items) ctx = .ok bs) :
    ∃ w, Decode.textArray bs ctx = .ok w ∧ Echoes items ElementType.text.oid w := by
  have htexts : ∀ v ∈ items, v = .null ∨ ∃ s, v = .text s := by
    intro v hv
    cases hnull : v.isNull with
    | true => exact .inl (eq_null_of_isNull hnull)
    | false =>
      have htest := hitems v hv hnull
      cases v with
      | text s => exact .inr ⟨s, rfl⟩
      | _ => cases htest
  have hinspect : standard.inspect (.array items) = .ok ElementType.text.encoder :=
    inspect_array_eq_ok_iff.2 ⟨.text, rfl, hpresent, hitems⟩
  exact ⟨_, ArrayLiteral.textArray_encoded htexts hencode, items, _, rfl, rfl, hinspect, rfl⟩

/-! ## Floats -/

/-- A column without a decoder of its own gives the literal back as it was sent. -/
theorem literal_of_text (hencode : Encode.array (.array items) ctx = .ok bs) :
    ∃ cs, ArrayLiteral.write items = .ok cs ∧
      Decode.text bs ctx = .ok (.text (String.ofList cs)) := by
  obtain ⟨cs, hcs, hbytes⟩ := bind_eq_ok_iff.1 hencode
  refine ⟨cs, hcs, ?_⟩
  rw [Decode.text, CodecContext.decodeText_encodeText hbytes]
  rfl

theorem not_echoes_text {oid : Oid} {s : String} : ¬ Echoes items oid (.text s) :=
  fun ⟨_, _, hw, _⟩ => Value.noConfusion hw

/-! ## All arrays -/

/-- An array that an encoder is chosen for and that is written has a declared type whose decoder
has the encoder's format and reads the bytes. What it reads is again an array of as many elements,
null in the same places and of the same declared type, exactly if no element is a float; else it
is the literal, as a text. -/
theorem arrays_echoed_iff (hinspect : standard.inspect (.array items) = .ok e)
    (hencode : e.encode (.array items) ctx = .ok bs) :
    (standard.lookup e.oid).format = e.format ∧
      ∃ w, (standard.lookup e.oid).decode bs ctx = .ok w ∧
        (Echoes items e.oid w ↔ ∀ v ∈ items, v.isFloat = false) ∧
        ((∃ v ∈ items, v.isFloat = true) →
          ∃ cs, ArrayLiteral.write items = .ok cs ∧ w = .text (String.ofList cs)) := by
  obtain ⟨t, rfl, hpresent, hitems⟩ := inspect_array_eq_ok_iff.1 hinspect
  have htype : ∀ v ∈ items, v.isFloat = true → t = .float := by
    intro v hv hfloat
    refine ElementType.test_unique (hitems v hv ?_) hfloat
    cases v with
    | float4 | float8 => rfl
    | _ => cases hfloat
  have hnone : t ≠ .float → ∀ v ∈ items, v.isFloat = false :=
    fun hne v hv => Bool.eq_false_iff.2 fun hfloat => hne (htype v hv hfloat)
  cases t with
  | integer =>
    obtain ⟨w, hdecode, hechoes⟩ := integers_echoed hpresent hitems hencode
    refine ⟨rfl, w, hdecode, iff_of_true hechoes (hnone nofun), ?_⟩
    exact fun ⟨v, hv, hfloat⟩ => ElementType.noConfusion (htype v hv hfloat)
  | text =>
    obtain ⟨w, hdecode, hechoes⟩ := texts_echoed hpresent hitems hencode
    refine ⟨rfl, w, hdecode, iff_of_true hechoes (hnone nofun), ?_⟩
    exact fun ⟨v, hv, hfloat⟩ => ElementType.noConfusion (htype v hv hfloat)
  | float =>
    obtain ⟨cs, hcs, hdecode⟩ := literal_of_text hencode
    obtain ⟨v, hv, hnull⟩ := hpresent
    have hfloat : ¬ ∀ v ∈ items, v.isFloat = false :=
      fun hall => Bool.false_ne_true ((hall v hv).symm.trans (hitems v hv hnull))
    exact ⟨rfl, _, hdecode, iff_of_false not_echoes_text hfloat, fun _ => ⟨cs, hcs, rfl⟩⟩

/-- Two integers around a null, in LATIN1. -/
theorem arrays_echoed_iff_mixed :
    ∃ w, Decode.intArray [0x7b, 0x2d, 0x33, 0x2c, 0x4e, 0x55, 0x4c, 0x4c, 0x2c, 0x37, 0x7d]
        { encoding := .latin1 } = .ok w ∧
      Echoes [.int2 (-3), .null, .int 7] .int8Array w := by
  have hencode : Encode.array (.array [.int2 (-3), .null, .int 7]) { encoding := .latin1 } =
      .ok [0x7b, 0x2d, 0x33, 0x2c, 0x4e, 0x55, 0x4c, 0x4c, 0x2c, 0x37, 0x7d] := by
    decide +kernel
  obtain ⟨-, w, hdecode, hechoes, -⟩ :=
    @arrays_echoed_iff _ ElementType.integer.encoder _ _ rfl hencode
  refine ⟨w, hdecode, hechoes.2 ?_⟩
  simp [Value.isFloat, Value.kind]

/-- One and a half, alone in an array: declared as an array of floats, it comes back as a text. -/
theorem floats_retyped :
    ∃ e, standard.inspect (.array [.float8 0x3ff8000000000000]) = .ok e ∧ e.oid = .float8Array ∧
      e.encode (.array [.float8 0x3ff8000000000000]) {} = .ok [0x7b, 0x31, 0x2e, 0x35, 0x7d] ∧
      (standard.lookup e.oid).decode [0x7b, 0x31, 0x2e, 0x35, 0x7d] {} =
        .ok (.text "\x7b1.5\x7d") ∧
      ¬ Echoes [.float8 0x3ff8000000000000] e.oid (.text "\x7b1.5\x7d") := by
  have hencode : Encode.array (.array [.float8 0x3ff8000000000000]) {} =
      .ok [0x7b, 0x31, 0x2e, 0x35, 0x7d] := by
    decide +kernel
  have hread : ({} : CodecContext).decodeText [0x7b, 0x31, 0x2e, 0x35, 0x7d] =
      .ok "\x7b1.5\x7d" := by
    decide +kernel
  have hdecode : Decode.text [0x7b, 0x31, 0x2e, 0x35, 0x7d] {} = .ok (.text "\x7b1.5\x7d") := by
    rw [Decode.text, hread]
    rfl
  exact ⟨ElementType.float.encoder, rfl, rfl, hencode, hdecode, not_echoes_text⟩

end PgClient.CodecTable
