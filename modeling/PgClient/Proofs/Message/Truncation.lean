/-
  PgClient.Proofs.Message.Truncation

  Bodies that are cut short. The layout of each kind of body is a set of byte
  strings, said without the reader: texts of any bytes but zero, counts and lengths
  as they come. A body of the layout is read as a message whatever follows it, and
  each of its proper prefixes is refused for the bytes that are not there.
-/
import Mathlib.Computability.Language
import PgClient.Proofs.Message.Decoding

namespace PgClient

open Steps

/-! ## Layouts -/

namespace Layout

/-- As many bytes, whatever they are. -/
def word (n : Nat) : Language UInt8 := {bs | bs.length = n}

/-- Bytes up to the zero that ends them; they need not spell any text. -/
def text : Language UInt8 := {bs | ∃ cs, 0 ∉ cs ∧ bs = Wire.cstring cs}

/-- A count that is not negative, and as many items. -/
def counted (item : Language UInt8) : Language UInt8 :=
  {bs | ∃ items : List Bytes, items.length ≤ maxCount ∧ (∀ bs ∈ items, bs ∈ item) ∧
    bs = Wire.count items.length ++ items.flatten}

/-- A length and as many bytes; any negative length is that of a missing value. -/
def value : Language UInt8 :=
  {bs | ∃ length data, length.length = 4 ∧ bs = length ++ data ∧
    data.length = (Bytes.toInt32 length).toInt.toNat}

/-- The letter of a transaction status. -/
def status : Language UInt8 := {bs | ∃ s : TransactionStatus, bs = [Wire.status s]}

def origin : Language UInt8 := text * text * text * text * word 2

def field (version : Int32) : Language UInt8 :=
  text * word 4 * word 2 * word 4 * word 2 * word 4 * word 2 * if 1 ≤ version then origin else 1

def copyFormats : Language UInt8 := word 1 * counted (word 2)

/-- The body of a message of some kind. -/
inductive WellFormed (version : Int32) : Char → Bytes → Prop
  | backendKeyData {body : Bytes} (h : body ∈ word 4 * word 4) : WellFormed version 'K' body
  | parameterStatus {body : Bytes} (h : body ∈ text * text) : WellFormed version 'S' body
  | notification {body : Bytes} (h : body ∈ word 4 * text * text) : WellFormed version 'A' body
  | readyForQuery {body : Bytes} (h : body ∈ status) : WellFormed version 'Z' body
  | commandComplete {body : Bytes} (h : body ∈ text) : WellFormed version 'C' body
  | rowDescription {body : Bytes} (h : body ∈ counted (field version)) :
      WellFormed version 'T' body
  | dataRow {body : Bytes} (h : body ∈ counted value) : WellFormed version 'D' body
  | parameterDescription {body : Bytes} (h : body ∈ counted (word 4)) :
      WellFormed version 't' body
  | copyIn {body : Bytes} (h : body ∈ copyFormats) : WellFormed version 'G' body
  | copyOut {body : Bytes} (h : body ∈ copyFormats) : WellFormed version 'H' body
  | md5 {salt : Bytes} (h : salt ∈ word 4) : WellFormed version 'R' (Bytes.ofInt32 5 ++ salt)

end Layout

/-! ## Readers -/

/-- Bytes are missing. -/
def Violation.IsShort : Violation → Prop
  | .truncated need available => available < need
  | .unterminatedString => True
  | _ => False

namespace Body

variable {α β : Type} {L M : Language UInt8}

/-- The reader takes these bytes for this value, and it needs all of them. -/
structure Needs (reader : Body α) (bs : Bytes) (a : α) : Prop where
  reads : Reads reader bs a
  short : ∀ n < bs.length, ∃ v, reader.run (bs.take n) = .error v ∧ v.IsShort

/-- The reader takes every byte string of a layout, and needs all of it. -/
def Covers (reader : Body α) (L : Language UInt8) : Prop := ∀ bs ∈ L, ∃ a, Needs reader bs a

theorem Needs.pure (a : α) : Needs (pure a) [] a where
  reads := .pure a
  short _ h := absurd h (Nat.not_lt_zero _)

theorem Needs.bind {reader : Body α} {next : α → Body β} {bs bs' : Bytes} {a : α} {b : β}
    (h : Needs reader bs a) (h' : Needs (next a) bs' b) :
    Needs (reader >>= next) (bs ++ bs') b where
  reads := h.reads.bind h'.reads
  short n hn := by
    rw [StateT.run_bind]
    by_cases hfront : n < bs.length
    · -- The cut lies in what the first reader needs.
      obtain ⟨v, hv, hshort⟩ := h.short n hfront
      rw [List.take_append_of_le_length (Nat.le_of_lt hfront), hv]
      exact ⟨v, rfl, hshort⟩
    · have hback : n - bs.length < bs'.length := by
        rw [List.length_append] at hn
        omega
      obtain ⟨v, hv, hshort⟩ := h'.short _ hback
      rw [List.take_append, List.take_of_length_le (Nat.not_lt.1 hfront), h.reads]
      exact ⟨v, hv, hshort⟩

theorem Needs.map {reader : Body α} {bs : Bytes} {a : α} (h : Needs reader bs a) (f : α → β) :
    Needs (reader >>= fun a => Pure.pure (f a)) bs (f a) := by
  have hmap : Needs (reader >>= fun a => Pure.pure (f a)) (bs ++ []) (f a) :=
    h.bind (.pure (f a))
  rwa [List.append_nil] at hmap

theorem needs_take {bs : Bytes} {n : Nat} (h : bs.length = n) : Needs (take n) bs bs where
  reads := reads_take h
  short m hm := by
    subst h
    have hsplit : Bytes.split? bs.length (bs.take m) = none := by
      rw [Bytes.split?_eq, if_neg (by rw [List.length_take]; omega)]
    refine ⟨.truncated bs.length (bs.take m).length, ?_, ?_⟩
    · show take bs.length (bs.take m) = _
      unfold take
      rw [hsplit]
    · show (bs.take m).length < bs.length
      rw [List.length_take]
      omega

theorem needs_string {cs : Bytes} (h : 0 ∉ cs) :
    Needs string (Wire.cstring cs) (Utf8.decodeLossy cs) where
  reads := reads_string_of_bytes h
  short n hn := by
    have hn : n ≤ cs.length := by simpa [Wire.cstring, Nat.lt_succ_iff] using hn
    have hzero : 0 ∉ (cs ++ [0]).take n := by
      rw [List.take_append_of_le_length hn]
      exact fun hmem => h (List.mem_of_mem_take hmem)
    rw [Wire.cstring, string_run, if_neg hzero]
    exact ⟨_, rfl, trivial⟩

/-! ## Layouts in a row -/

theorem covers_pure (a : α) : Covers (pure a) 1 := by
  rintro _ rfl
  exact ⟨a, .pure a⟩

theorem Covers.bind {reader : Body α} {next : α → Body β} (h : Covers reader L)
    (h' : ∀ a, Covers (next a) M) : Covers (reader >>= next) (L * M) := by
  rintro _ ⟨front, hfront, back, hback, rfl⟩
  obtain ⟨a, ha⟩ := h front hfront
  obtain ⟨b, hb⟩ := h' a back hback
  exact ⟨b, ha.bind hb⟩

theorem Covers.map {reader : Body α} (h : Covers reader L) (f : α → β) :
    Covers (reader >>= fun a => Pure.pure (f a)) L := by
  intro bs hbs
  obtain ⟨a, ha⟩ := h bs hbs
  exact ⟨f a, ha.map f⟩

theorem Covers.fmap {reader : Body α} (h : Covers reader L) (f : α → β) :
    Covers (f <$> reader) L := by
  rw [map_eq_pure_bind]
  exact h.map f

theorem covers_take (n : Nat) : Covers (take n) (Layout.word n) :=
  fun bs hbs => ⟨bs, needs_take hbs⟩

theorem needs_uint8 (b : UInt8) : Needs uint8 [b] b := by
  have h : Needs uint8 [b] (UInt8.ofNat (Bytes.value [b])) :=
    (needs_take (show [b].length = 1 from rfl)).map fun bs => UInt8.ofNat (Bytes.value bs)
  simpa [Bytes.value] using h

theorem needs_int32 (w : Int32) : Needs int32 (Bytes.ofInt32 w) w := by
  have h : Needs int32 (Bytes.ofInt32 w) (Bytes.toInt32 (Bytes.ofInt32 w)) :=
    (needs_take (Bytes.length_bigEndian 4 w.toUInt32.toNat)).map Bytes.toInt32
  rwa [Bytes.toInt32_ofInt32] at h

theorem covers_uint8 : Covers uint8 (Layout.word 1) := (covers_take 1).map _

theorem covers_int16 : Covers int16 (Layout.word 2) := (covers_take 2).map _

theorem covers_int32 : Covers int32 (Layout.word 4) := (covers_take 4).map _

theorem covers_format : Covers format (Layout.word 2) := covers_int16.map _

theorem covers_string : Covers string Layout.text := by
  rintro _ ⟨cs, hcs, rfl⟩
  exact ⟨_, needs_string hcs⟩

/-! ## Lists -/

theorem needs_times {item : Body α} (h : Covers item L) {items : List Bytes}
    (hitems : ∀ bs ∈ items, bs ∈ L) :
    ∃ xs, Needs (times item items.length) items.flatten xs := by
  induction items with
  | nil => exact ⟨[], .pure []⟩
  | cons bs items ih =>
    obtain ⟨hbs, hitems⟩ := List.forall_mem_cons.1 hitems
    obtain ⟨x, hx⟩ := h bs hbs
    obtain ⟨xs, hxs⟩ := ih hitems
    exact ⟨x :: xs, hx.bind (hxs.map (x :: ·))⟩

theorem covers_counted {item : Body α} (h : Covers item L) :
    Covers (counted item) (Layout.counted L) := by
  rintro _ ⟨items, hcount, hitems, rfl⟩
  obtain ⟨xs, hxs⟩ := needs_times h hitems
  have hword : Needs int16 (Wire.count items.length) (Bytes.toInt16 (Wire.count items.length)) :=
    (needs_take (Bytes.length_bigEndian 2 items.length)).map Bytes.toInt16
  refine ⟨xs, hword.bind ?_⟩
  rw [Bytes.toInt16_count hcount]
  exact hxs

/-! ## Parts of messages -/

theorem covers_value : Covers value Layout.value := by
  rintro _ ⟨length, data, hlength, rfl, hdata⟩
  have hword : Needs int32 length (Bytes.toInt32 length) :=
    (needs_take hlength).map Bytes.toInt32
  by_cases hnull : Bytes.toInt32 length < 0
  · -- Nothing follows the length of a missing value.
    have hnegative : (Bytes.toInt32 length).toInt < 0 := Int32.lt_iff_toInt_lt.1 hnull
    obtain rfl : data = [] := List.length_eq_zero_iff.1 (by omega)
    refine ⟨none, hword.bind ?_⟩
    rw [if_pos hnull]
    exact .pure none
  · refine ⟨some data, hword.bind ?_⟩
    rw [if_neg hnull]
    exact (needs_take hdata).map some

theorem covers_status : Covers status Layout.status := by
  rintro _ ⟨s, rfl⟩
  have hword := needs_uint8 (Wire.status s)
  cases s <;> exact ⟨_, hword.bind (.pure _)⟩

theorem covers_origin : Covers origin Layout.origin := by
  unfold Layout.origin
  simp only [mul_assoc]
  exact covers_string.bind fun _ => covers_string.bind fun _ => covers_string.bind fun _ =>
    covers_string.bind fun _ => covers_int16.map _

theorem covers_field (version : Int32) : Covers (field version) (Layout.field version) := by
  unfold Layout.field
  simp only [mul_assoc]
  refine covers_string.bind fun _ => covers_int32.bind fun _ => covers_int16.bind fun _ =>
    covers_int32.bind fun _ => covers_int16.bind fun _ => covers_int32.bind fun _ =>
      covers_format.bind fun _ => ?_
  split
  · exact (covers_origin.fmap some).map _
  · exact (covers_pure none).map _

theorem covers_copyFormats : Covers copyFormats Layout.copyFormats :=
  covers_uint8.bind fun _ => (covers_counted covers_format).map _

/-- The reader of a message needs all of a body of its kind. -/
theorem needs_message {version : Int32} {tag : Char} {body : Bytes}
    (h : Layout.WellFormed version tag body) : ∃ m, Needs (message tag.toUInt8 version) body m := by
  cases h with
  | backendKeyData h => exact (covers_int32.bind fun _ => covers_int32.map _) body h
  | parameterStatus h => exact (covers_string.bind fun _ => covers_string.map _) body h
  | notification h =>
    rw [mul_assoc] at h
    exact (covers_int32.bind fun _ => covers_string.bind fun _ => covers_string.map _) body h
  | readyForQuery h => exact (covers_status.map _) body h
  | commandComplete h => exact (covers_string.map _) body h
  | rowDescription h => exact ((covers_counted (covers_field version)).map _) body h
  | dataRow h => exact ((covers_counted covers_value).map _) body h
  | parameterDescription h => exact ((covers_counted covers_int32).map _) body h
  | copyIn h => exact (covers_copyFormats.map _) body h
  | copyOut h => exact (covers_copyFormats.map _) body h
  | @md5 salt h =>
    exact ⟨_, ((needs_int32 5).bind ((needs_take h).map _)).map _⟩

end Body

/-- A body of the layout of its kind is decoded as a message, and as the same one whatever follows
it. None of its proper prefixes is decoded: each is refused for the bytes that are not there. -/
theorem Backend.truncated_refused (version : Int32) {tag : Char} {body : Bytes}
    (h : Layout.WellFormed version tag body) :
    ∃ m, decode tag.toUInt8 body version = .ok m ∧
      (∀ extra, decode tag.toUInt8 (body ++ extra) version = .ok m) ∧
      ∀ front, front <+: body → front ≠ body →
        ∃ v, decode tag.toUInt8 front version = .error v ∧ v.IsShort := by
  obtain ⟨m, hreads, hshort⟩ := Body.needs_message h
  have hdecode : ∀ extra, decode tag.toUInt8 (body ++ extra) version = .ok m := by
    intro extra
    rw [decode, show Body.message tag.toUInt8 version (body ++ extra) = .ok (m, extra) from
      hreads extra]
    rfl
  refine ⟨m, ?_, hdecode, fun front hfront hne => ?_⟩
  · have hnil := hdecode []
    rwa [List.append_nil] at hnil
  · have hlength : front.length < body.length :=
      Nat.lt_of_le_of_ne hfront.length_le fun heq => hne (hfront.eq_of_length heq)
    obtain ⟨v, hv, hv_short⟩ := hshort _ hlength
    rw [← List.prefix_iff_eq_take.1 hfront] at hv
    refine ⟨v, ?_, hv_short⟩
    rw [decode, show Body.message tag.toUInt8 version front = .error v from hv]
    rfl

/-- A row of a letter, a missing value and an empty one; cut before the letter, it is refused. -/
theorem Backend.truncated_refused_row :
    (∃ m, ∀ extra, decode 'D'.toUInt8 ([0, 3, 0, 0, 0, 1, 0x61, 0xff, 0xff, 0xff, 0xff, 0, 0, 0, 0] ++
        extra) 0 = .ok m) ∧
      ∃ v, decode 'D'.toUInt8 [0, 3, 0, 0, 0, 1] 0 = .error v ∧ v.IsShort := by
  have hvalues : ∀ bs ∈ [[0, 0, 0, 1, 0x61], [0xff, 0xff, 0xff, 0xff], [0, 0, 0, 0]],
      bs ∈ Layout.value := by
    simp only [List.forall_mem_cons]
    exact ⟨⟨[0, 0, 0, 1], [0x61], rfl, rfl, by decide⟩,
      ⟨[0xff, 0xff, 0xff, 0xff], [], rfl, rfl, by decide⟩,
      ⟨[0, 0, 0, 0], [], rfl, rfl, by decide⟩, fun _ => nofun⟩
  have hrow : Layout.WellFormed 0 'D'
      [0, 3, 0, 0, 0, 1, 0x61, 0xff, 0xff, 0xff, 0xff, 0, 0, 0, 0] :=
    .dataRow ⟨_, by decide, hvalues, rfl⟩
  obtain ⟨m, -, hdecode, hcut⟩ := truncated_refused 0 hrow
  exact ⟨⟨m, hdecode⟩, hcut [0, 3, 0, 0, 0, 1] (by decide) (by decide)⟩

end PgClient
