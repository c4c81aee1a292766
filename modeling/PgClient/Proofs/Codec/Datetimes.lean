/-
  PgClient.Proofs.Codec.Datetimes

  Dates, times of day and moments in binary, where the server counts in integers:
  one word that holds the distance from 2000-01-01 or from midnight. The four
  sorts share one law, `Temporal.Exact`, which follows from their encoder and
  decoder and from the order of the calendar.
-/
import PgClient.Bytes.Lemmas
import PgClient.Codec.Table
import PgClient.Proofs.Calendar
import PgClient.Proofs.Steps

namespace PgClient

open Steps

/-! ## Words -/

/-- A signed word on the wire: the numbers it holds, how they are written and read. -/
structure Word where
  width : Nat
  low : Int
  high : Int
  write : Int → Bytes
  read : Bytes → Int
  length_write : ∀ n, (write n).length = width
  read_write : ∀ n, low ≤ n → n ≤ high → read (write n) = n
  write_read : ∀ bs, bs.length = width → write (read bs) = bs

namespace Word

/-- Four bytes. -/
def int32 : Word where
  width := 4
  low := -2147483648
  high := 2147483647
  write n := Bytes.ofInt32 (Int32.ofInt n)
  read bs := (Bytes.toInt32 bs).toInt
  length_write _ := Bytes.length_bigEndian _ _
  read_write n hlow hhigh := by
    rw [Bytes.toInt32_ofInt32]
    exact Int32.toInt_ofInt_of_le hlow (Int.lt_of_le_of_lt hhigh (by decide))
  write_read bs h := by rw [Int32.ofInt_toInt, Bytes.ofInt32_toInt32 h]

/-- Eight bytes. -/
def int64 : Word where
  width := 8
  low := -9223372036854775808
  high := 9223372036854775807
  write n := Bytes.ofInt64 (Int64.ofInt n)
  read bs := (Bytes.toInt64 bs).toInt
  length_write _ := Bytes.length_bigEndian _ _
  read_write n hlow hhigh := by
    rw [Bytes.toInt64_ofInt64]
    exact Int64.toInt_ofInt_of_le hlow (Int.lt_of_le_of_lt hhigh (by decide))
  write_read bs h := by rw [Int64.ofInt_toInt, Bytes.ofInt64_toInt64 h]

end Word

/-! ## Sorts of dates and times -/

/-- A sort of dates or times: which of its values the wire holds without a rest, the distance
that stands for one, and the encoder and decoder. -/
structure Temporal (α : Type) where
  value : α → Value
  Whole : α → Prop
  distance : α → Int
  Earlier : α → α → Prop
  word : Word
  encode : Value → CodecContext → Except Error Bytes
  decode : Bytes → CodecContext → Except Error Value

namespace Temporal

variable {α : Type}

/-- The encoder and the decoder undo each other, and both keep the order. -/
structure Exact (t : Temporal α) (ctx : CodecContext) : Prop where
  /-- Every value is sent, as its distance, and read back from that. -/
  sent : ∀ a, t.Whole a → ∃ bs, t.encode (t.value a) ctx = .ok bs ∧ bs.length = t.word.width ∧
    t.word.read bs = t.distance a ∧ t.decode bs ctx = .ok (t.value a)
  /-- A word is read exactly if there is a value at its distance. -/
  read_iff : ∀ bs, bs.length = t.word.width →
    ((∃ v, t.decode bs ctx = .ok v) ↔ ∃ a, t.Whole a ∧ t.distance a = t.word.read bs)
  /-- What is read is the value at that distance, and is written as the same bytes. -/
  rewritten : ∀ bs v, t.decode bs ctx = .ok v → bs.length = t.word.width ∧
    ∃ a, v = t.value a ∧ t.Whole a ∧ t.distance a = t.word.read bs ∧ t.encode v ctx = .ok bs
  /-- Of two words the greater is read as the later value. -/
  increasing : ∀ bs bs' a a', t.decode bs ctx = .ok (t.value a) →
    t.decode bs' ctx = .ok (t.value a') → t.word.read bs < t.word.read bs' → t.Earlier a a'

variable {t : Temporal α} {ctx : CodecContext}

/-- It is enough that the encoder writes the distance and that the decoder looks for a value
at the distance it reads. -/
theorem Exact.intro
    (hencode : ∀ a, t.Whole a → t.encode (t.value a) ctx = .ok (t.word.write (t.distance a)))
    (hdecode : ∀ bs v, t.decode bs ctx = .ok v ↔ bs.length = t.word.width ∧
      ∃ a, v = t.value a ∧ t.Whole a ∧ t.distance a = t.word.read bs)
    (hfits : ∀ a, t.Whole a → t.word.low ≤ t.distance a ∧ t.distance a ≤ t.word.high)
    (horder : ∀ a a', t.Whole a → t.Whole a' → t.distance a < t.distance a' → t.Earlier a a')
    (hvalue : ∀ a a', t.value a = t.value a' → a = a') : t.Exact ctx where
  sent := by
    intro a ha
    have hlength := t.word.length_write (t.distance a)
    have hread := t.word.read_write _ (hfits a ha).1 (hfits a ha).2
    exact ⟨_, hencode a ha, hlength, hread, (hdecode _ _).2 ⟨hlength, a, rfl, ha, hread.symm⟩⟩
  read_iff := by
    intro bs hbs
    constructor
    · rintro ⟨v, hv⟩
      obtain ⟨-, a, -, ha, hdistance⟩ := (hdecode bs v).1 hv
      exact ⟨a, ha, hdistance⟩
    · rintro ⟨a, ha, hdistance⟩
      exact ⟨t.value a, (hdecode bs _).2 ⟨hbs, a, rfl, ha, hdistance⟩⟩
  rewritten := by
    intro bs v hv
    obtain ⟨hbs, a, rfl, ha, hdistance⟩ := (hdecode bs v).1 hv
    refine ⟨hbs, a, rfl, ha, hdistance, ?_⟩
    rw [hencode a ha, hdistance, t.word.write_read bs hbs]
  increasing := by
    intro bs bs' a a' h h' hlt
    obtain ⟨-, b, hb, hwhole, hdistance⟩ := (hdecode bs _).1 h
    obtain ⟨-, b', hb', hwhole', hdistance'⟩ := (hdecode bs' _).1 h'
    obtain rfl := hvalue _ _ hb
    obtain rfl := hvalue _ _ hb'
    exact horder a a' hwhole hwhole' (by rwa [hdistance, hdistance'])

end Temporal

/-! ## Encoders and decoders -/

section Decoders

variable {bs : Bytes} {ctx : CodecContext} {v : Value}

theorem Decode.fixed_eq_ok_iff {width : Nat} {type : String} {raw : Bytes} :
    Decode.fixed width type bs = .ok raw ↔ bs.length = width ∧ bs = raw := by
  unfold Decode.fixed
  by_cases h : bs.length = width <;> simp [h]

theorem Decode.micros_eq_ok_iff (h : ctx.integerDatetimes = true) {type : String} {n : Int} :
    Decode.micros type bs ctx = .ok n ↔ bs.length = 8 ∧ Word.int64.read bs = n := by
  have hread (raw : Bytes) : (if ctx.integerDatetimes = true then
      (return (Bytes.toInt64 raw).toInt : Except Error Int) else
      return (Float.ofBits (Bytes.toUInt64 raw) * 1000000.0).round.toInt64.toInt) =
      .ok (Word.int64.read raw) := by
    rw [if_pos h]
    rfl
  rw [Decode.micros, bind_eq_ok_iff]
  constructor
  · rintro ⟨raw, hraw, hn⟩
    obtain ⟨hlength, rfl⟩ := Decode.fixed_eq_ok_iff.1 hraw
    exact ⟨hlength, Except.ok.inj ((hread bs).symm.trans hn)⟩
  · rintro ⟨hlength, rfl⟩
    exact ⟨bs, Decode.fixed_eq_ok_iff.2 ⟨hlength, rfl⟩, hread bs⟩

theorem Decode.moment_eq_ok_iff {n : Int} {m : Moment} :
    Decode.moment n = .ok m ↔ m.time.Whole ∧ m.micros = n := by
  refine Iff.trans ?_ Moment.ofMicros?_eq_some_iff
  unfold Decode.moment
  split
  · next k hk => rw [hk, Except.ok.injEq, Option.some.injEq]
  · next hk => simp only [hk, reduceCtorEq]

theorem Decode.date_eq_ok_iff :
    Decode.date bs ctx = .ok v ↔
      bs.length = 4 ∧ ∃ d : Date, v = .date d ∧ True ∧ d.dayNumber = Word.int32.read bs := by
  rw [Decode.date, bind_eq_ok_iff]
  constructor
  · rintro ⟨raw, hraw, hv⟩
    obtain ⟨hlength, rfl⟩ := Decode.fixed_eq_ok_iff.1 hraw
    dsimp only at hv
    split at hv
    · next d hd =>
      exact ⟨hlength, d, (Except.ok.inj hv).symm, trivial, Date.ofDayNumber?_eq_some_iff.1 hd⟩
    · cases hv
  · rintro ⟨hlength, d, rfl, -, hd⟩
    refine ⟨bs, Decode.fixed_eq_ok_iff.2 ⟨hlength, rfl⟩, ?_⟩
    rw [Word.int32, ← Date.ofDayNumber?_eq_some_iff] at hd
    dsimp only
    rw [hd]
    rfl

theorem Decode.time_eq_ok_iff (h : ctx.integerDatetimes = true) :
    Decode.time bs ctx = .ok v ↔
      bs.length = 8 ∧ ∃ t : TimeOfDay, v = .time t ∧ t.Whole ∧ t.micros = Word.int64.read bs := by
  rw [Decode.time, bind_eq_ok_iff]
  constructor
  · rintro ⟨n, hn, hv⟩
    obtain ⟨hlength, rfl⟩ := (Decode.micros_eq_ok_iff h).1 hn
    split at hv
    · next t ht =>
      exact ⟨hlength, t, (Except.ok.inj hv).symm, TimeOfDay.ofMicros?_eq_some_iff.1 ht⟩
    · cases hv
  · rintro ⟨hlength, t, rfl, ht⟩
    refine ⟨_, (Decode.micros_eq_ok_iff h).2 ⟨hlength, rfl⟩, ?_⟩
    rw [TimeOfDay.ofMicros?_eq_some_iff.2 ht]
    rfl

/-- Moments are read alike, with or without a time zone. -/
theorem Decode.moments_eq_ok_iff (h : ctx.integerDatetimes = true) {type : String}
    {value : Moment → Value} :
    (do return value (← Decode.moment (← Decode.micros type bs ctx))) = Except.ok v ↔
      bs.length = 8 ∧
        ∃ m : Moment, v = value m ∧ m.time.Whole ∧ m.micros = Word.int64.read bs := by
  simp only [bind_eq_ok_iff, Decode.micros_eq_ok_iff h, Decode.moment_eq_ok_iff]
  constructor
  · rintro ⟨n, ⟨hlength, rfl⟩, m, hm, hv⟩
    exact ⟨hlength, m, (Except.ok.inj hv).symm, hm⟩
  · rintro ⟨hlength, m, rfl, hm⟩
    exact ⟨_, ⟨hlength, rfl⟩, m, hm, rfl⟩

end Decoders

section Encoders

variable {ctx : CodecContext}

/-- No date is out of range. -/
theorem Encode.date_date (d : Date) :
    Encode.date (.date d) ctx = .ok (Word.int32.write d.dayNumber) := if_pos d.dayNumber_bounds

theorem Encode.micros_integer (h : ctx.integerDatetimes = true) (n : Int) :
    Encode.micros n ctx = Word.int64.write n := if_pos h

/-- No moment is out of range. -/
theorem Encode.timestamp_moment {v : Value} {m : Moment}
    (hv : v = .timestamp m ∨ v = .timestamptz m) :
    Encode.timestamp v ctx = .ok (Encode.micros m.micros ctx) := by
  rcases hv with rfl | rfl
  all_goals exact if_pos m.micros_bounds

end Encoders

/-! ## The four sorts -/

namespace Temporal

def dates : Temporal Date where
  value := .date
  Whole _ := True
  distance := Date.dayNumber
  Earlier := Date.Earlier
  word := .int32
  encode := Encode.date
  decode := Decode.date

def times : Temporal TimeOfDay where
  value := .time
  Whole := TimeOfDay.Whole
  distance := TimeOfDay.micros
  Earlier := TimeOfDay.Earlier
  word := .int64
  encode := Encode.time
  decode := Decode.time

/-- Moments are sent alike, with or without a time zone. -/
def moments (value : Moment → Value) (decode : Bytes → CodecContext → Except Error Value) :
    Temporal Moment where
  value := value
  Whole m := m.time.Whole
  distance := Moment.micros
  Earlier := Moment.Earlier
  word := .int64
  encode := Encode.timestamp
  decode := decode

def timestamps : Temporal Moment := moments .timestamp Decode.timestamp

def timestamptzs : Temporal Moment := moments .timestamptz Decode.timestamptz

variable {ctx : CodecContext}

theorem dates_exact : dates.Exact ctx :=
  .intro (fun d _ => @Encode.date_date ctx d) (fun bs v => @Decode.date_eq_ok_iff bs ctx v)
    (fun d _ => d.dayNumber_bounds) (fun _ _ _ _ => Date.dayNumber_lt_iff.1)
    (fun _ _ => Value.date.inj)

theorem times_exact (h : ctx.integerDatetimes = true) : times.Exact ctx :=
  .intro (fun t _ => congrArg Except.ok (Encode.micros_integer h t.micros))
    (fun _ _ => Decode.time_eq_ok_iff h)
    (fun t ht => by
      have := TimeOfDay.micros_bounds ht
      simp only [times, Word.int64]
      omega)
    (fun _ _ ht hu => (TimeOfDay.micros_lt_iff ht hu).1) (fun _ _ => Value.time.inj)

theorem moments_exact (h : ctx.integerDatetimes = true) {value : Moment → Value}
    {decode : Bytes → CodecContext → Except Error Value}
    (hencode : ∀ m, Encode.timestamp (value m) ctx = .ok (Encode.micros m.micros ctx))
    (hdecode : ∀ bs v, decode bs ctx = .ok v ↔ bs.length = 8 ∧
      ∃ m : Moment, v = value m ∧ m.time.Whole ∧ m.micros = Word.int64.read bs)
    (hvalue : ∀ m k, value m = value k → m = k) : (moments value decode).Exact ctx :=
  .intro
    (fun m _ => (hencode m).trans (congrArg Except.ok (Encode.micros_integer h m.micros)))
    hdecode (fun m _ => m.micros_bounds) (fun _ _ hm hk => (Moment.micros_lt_iff hm hk).1) hvalue

theorem timestamps_exact (h : ctx.integerDatetimes = true) : timestamps.Exact ctx :=
  moments_exact h (fun _ => Encode.timestamp_moment (.inl rfl))
    (fun _ _ => Decode.moments_eq_ok_iff h) (fun _ _ => Value.timestamp.inj)

theorem timestamptzs_exact (h : ctx.integerDatetimes = true) : timestamptzs.Exact ctx :=
  moments_exact h (fun _ => Encode.timestamp_moment (.inr rfl))
    (fun _ _ => Decode.moments_eq_ok_iff h) (fun _ _ => Value.timestamptz.inj)

/-- Where times are integers, dates, times of day and moments are sent without loss, every word
at whose distance there is one is read as that one, and a greater word as a later one. A time of
day is read from 0 microseconds up to those of a whole day, and not from these. -/
theorem datetimes_exact (h : ctx.integerDatetimes = true) :
    (dates.Exact ctx ∧ times.Exact ctx ∧ timestamps.Exact ctx ∧ timestamptzs.Exact ctx) ∧
      (∀ bs : Bytes, bs.length = 8 → ((∃ v, Decode.time bs ctx = .ok v) ↔
        0 ≤ (Bytes.toInt64 bs).toInt ∧ (Bytes.toInt64 bs).toInt < 86400000000)) ∧
      -- The distances count days and microseconds from 2000-01-01, and no day is left out.
      Date.origin.dayNumber = 0 ∧
      (∀ d e : Date, d.Next e → e.dayNumber = d.dayNumber + 1) ∧
      (∀ n, (∃ d : Date, d.dayNumber = n) ↔
        Date.first.dayNumber ≤ n ∧ n ≤ Date.last.dayNumber) ∧
      ∀ m : Moment, m.time.Whole →
        m.micros = m.date.dayNumber * 86400000000 + m.time.micros := by
  refine ⟨⟨dates_exact, times_exact h, timestamps_exact h, timestamptzs_exact h⟩, ?_,
    Date.dayNumber_origin, fun _ _ => Date.Next.dayNumber_eq,
    fun _ => Date.exists_dayNumber_iff, fun _ => Moment.micros_eq⟩
  intro bs hbs
  refine ((times_exact h).read_iff bs hbs).trans (Iff.trans ?_ TimeOfDay.exists_ofMicros?_iff)
  exact exists_congr fun t => TimeOfDay.ofMicros?_eq_some_iff.symm

/-- The law at work: the day before the first of March of a leap year, and the microsecond
before a midnight. -/
theorem datetimes_exact_default :
    ({} : CodecContext).integerDatetimes = true ∧
      Decode.date [0, 0, 0, 59] {} = .ok (.date ⟨2000, 2, 29, by decide⟩) ∧
      (∃ bs, Encode.date (.date ⟨2000, 2, 29, by decide⟩) {} = .ok bs ∧
        Decode.date bs {} = .ok (.date ⟨2000, 2, 29, by decide⟩)) ∧
      ∃ v, Decode.time [0, 0, 0, 20, 29, 215, 95, 255] {} = .ok v := by
  obtain ⟨⟨hdates, -, -, -⟩, htime, -⟩ :=
    datetimes_exact (show ({} : CodecContext).integerDatetimes = true from rfl)
  obtain ⟨bs, hencode, -, -, hdecode⟩ := hdates.sent ⟨2000, 2, 29, by decide⟩ trivial
  exact ⟨rfl, rfl, ⟨bs, hencode, hdecode⟩, (htime _ rfl).2 (by decide)⟩

end Temporal

end PgClient
