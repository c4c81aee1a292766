/-
  PgClient.Proofs.Message.Decoding

  What a server writes is read back. Each reader of a body takes exactly what the
  layout puts there for its value, and the frames of a stream come out as the
  messages they were written for, up to the place where the stream ends.
-/
import Mathlib.Data.List.Sort
import PgClient.Proofs.Message.Framing
import PgClient.Proofs.Message.Layout
import PgClient.Text.Utf8.Lemmas

namespace PgClient

open Steps

/-! ## Words and texts -/

namespace Bytes

/-- A count that fits is read as itself. -/
theorem toInt16_count {n : Nat} (h : n ≤ maxCount) :
    (toInt16 (Wire.count n)).toInt.toNat = n := by
  unfold maxCount at h
  have word : (toInt16 (Wire.count n)).toInt = ((n % capacity 2 : Nat) : Int).bmod (2 ^ 16) := by
    unfold toInt16 Wire.count
    rw [value_bigEndian]
    exact BitVec.toInt_ofNat ..
  rw [word, Nat.mod_eq_of_lt (by simp only [capacity]; omega), Int.bmod_def]
  omega

/-- A length that fits is read as itself. -/
theorem toInt32_length {n : Nat} (h : n < 2147483648) : (toInt32 (Wire.length n)).toInt = n := by
  have word : (toInt32 (Wire.length n)).toInt = ((n % capacity 4 : Nat) : Int).bmod (2 ^ 32) := by
    unfold toInt32 Wire.length
    rw [value_bigEndian]
    exact BitVec.toInt_ofNat ..
  rw [word, Nat.mod_eq_of_lt (by simp only [capacity]; omega), Int.bmod_def]
  omega

end Bytes

/-- Only the character zero is written with a zero. -/
theorem Utf8.eq_zero_of_mem_encodeChar {c : Char} (h : 0 ∈ String.utf8EncodeChar c) :
    c = '\x00' := by
  have hzero {n : Nat} (hn : 0 = UInt8.ofNat n) : n % 256 = 0 := by
    have := congrArg UInt8.toNat hn
    rw [UInt8.toNat_ofNat'] at this
    exact this.symm
  simp only [String.utf8EncodeChar] at h
  -- Every byte of a longer form has its highest bit set.
  split at h
  · next hsmall =>
    have := hzero (List.mem_singleton.1 h)
    have hval : c.toNat = 0 := by
      show c.val.toNat = 0
      omega
    rw [← Char.ofNat_toNat c, hval]
  · exfalso
    split at h
    · simp only [List.mem_cons, List.not_mem_nil, or_false] at h
      rcases h with h | h <;> have := hzero h <;> omega
    · split at h
      · simp only [List.mem_cons, List.not_mem_nil, or_false] at h
        rcases h with h | h | h <;> have := hzero h <;> omega
      · simp only [List.mem_cons, List.not_mem_nil, or_false] at h
        rcases h with h | h | h | h <;> have := hzero h <;> omega

theorem Utf8.zero_notMem_encode {s : String} (h : Wire.IsText s) : 0 ∉ Utf8.encode s := by
  intro hmem
  obtain ⟨c, hc, hbyte⟩ := List.mem_flatMap.1 hmem
  rw [Utf8.eq_zero_of_mem_encodeChar hbyte] at hc
  exact h hc

/-! ## Reports as maps -/

namespace ReportFields

variable {fields listed : ReportFields} {key : UInt8} {text : String}

/-- A field of a new type is added to the others. -/
theorem insert_perm (hnew : ∀ f ∈ fields, f.1 ≠ key) :
    (fields.insert key text).Perm ((key, text) :: fields) := by
  induction fields with
  | nil => exact .refl _
  | cons f fields ih =>
    obtain ⟨hf, hfields⟩ := List.forall_mem_cons.1 hnew
    unfold insert
    rw [if_neg (Ne.symm hf)]
    split
    · exact .refl _
    · exact ((ih hfields).cons f).trans (.swap _ _ _)

/-- It finds its place in the order of types. -/
theorem pairwise_insert (hsorted : fields.Pairwise fun f g => f.1 < g.1)
    (hnew : ∀ f ∈ fields, f.1 ≠ key) :
    (fields.insert key text).Pairwise fun f g => f.1 < g.1 := by
  induction fields with
  | nil => exact List.pairwise_singleton _ _
  | cons f fields ih =>
    obtain ⟨hf, hfields⟩ := List.forall_mem_cons.1 hnew
    obtain ⟨hbefore, hrest⟩ := List.pairwise_cons.1 hsorted
    unfold insert
    rw [if_neg (Ne.symm hf)]
    split
    · next hlt =>
      refine List.pairwise_cons.2 ⟨?_, hsorted⟩
      exact List.forall_mem_cons.2 ⟨hlt, fun g hg => UInt8.lt_trans hlt (hbefore g hg)⟩
    · next hge =>
      refine List.pairwise_cons.2 ⟨fun g hg => ?_, ih hrest hfields⟩
      obtain rfl | hg := List.mem_cons.1 ((insert_perm hfields).subset hg)
      · exact UInt8.lt_of_le_of_ne (UInt8.not_lt.1 hge) hf
      · exact hbefore g hg

/-- The fields after some more, one by one. -/
def collect (fields : ReportFields) (listed : List (UInt8 × String)) : ReportFields :=
  listed.foldl (fun fields f => fields.insert f.1 f.2) fields

/-- Fields that all differ in type are collected without loss, and in order. -/
theorem collect_perm (hsorted : fields.Pairwise fun f g => f.1 < g.1)
    (hnew : ∀ f ∈ fields, ∀ g ∈ listed, f.1 ≠ g.1)
    (hlisted : listed.Pairwise fun f g => f.1 ≠ g.1) :
    (fields.collect listed).Perm (listed ++ fields) ∧
      (fields.collect listed).Pairwise fun f g => f.1 < g.1 := by
  induction listed generalizing fields with
  | nil => exact ⟨.refl _, hsorted⟩
  | cons g listed ih =>
    obtain ⟨hg, hlisted⟩ := List.pairwise_cons.1 hlisted
    have hfresh : ∀ f ∈ fields, f.1 ≠ g.1 := fun f hf => hnew f hf g List.mem_cons_self
    have hinsert : (fields.insert g.1 g.2).Perm (g :: fields) := insert_perm hfresh
    have hdiffer : ∀ f ∈ fields.insert g.1 g.2, ∀ g' ∈ listed, f.1 ≠ g'.1 := by
      intro f hf g' hg'
      obtain rfl | hf := List.mem_cons.1 (hinsert.subset hf)
      · exact hg g' hg'
      · exact hnew f hf g' (List.mem_cons_of_mem _ hg')
    obtain ⟨hperm, hpairwise⟩ := ih (pairwise_insert hsorted hfresh) hdiffer hlisted
    exact ⟨hperm.trans ((hinsert.append_left listed).trans List.perm_middle), hpairwise⟩

/-- A map is collected from its fields in any order. -/
theorem collect_eq (hperm : listed.Perm fields) (hsorted : fields.Pairwise fun f g => f.1 < g.1) :
    collect [] listed = fields := by
  have hdiffer : listed.Pairwise fun f g => f.1 ≠ g.1 :=
    (hperm.pairwise_iff fun h => Ne.symm h).2 (hsorted.imp UInt8.ne_of_lt)
  obtain ⟨hcollected, hpairwise⟩ : (collect [] listed).Perm (listed ++ []) ∧
      (collect [] listed).Pairwise fun f g => f.1 < g.1 :=
    collect_perm List.Pairwise.nil nofun hdiffer
  rw [List.append_nil] at hcollected
  refine List.Perm.eq_of_pairwise (fun f g _ _ hlt hgt => ?_) hpairwise hsorted
    (hcollected.trans hperm)
  exact absurd (UInt8.lt_trans hlt hgt) (UInt8.lt_irrefl _)

end ReportFields

/-- A list of what was made of some items is written as the items are. -/
theorem Wire.counted_map {α β : Type} (write : β → Bytes) (f : α → β) (xs : List α) :
    counted write (xs.map f) = counted (fun x => write (f x)) xs := by
  rw [counted, counted, List.length_map, List.flatMap_map]

/-! ## Readers -/

namespace Body

variable {α β : Type}

/-- The reader takes these bytes for this value, whatever comes after them. -/
def Reads (reader : Body α) (bs : Bytes) (a : α) : Prop :=
  ∀ rest, reader.run (bs ++ rest) = .ok (a, rest)

theorem Reads.pure (a : α) : Reads (pure a) [] a := fun _ => rfl

theorem Reads.bind {reader : Body α} {next : α → Body β} {bs bs' : Bytes} {a : α} {b : β}
    (h : Reads reader bs a) (h' : Reads (next a) bs' b) :
    Reads (reader >>= next) (bs ++ bs') b := by
  intro rest
  rw [StateT.run_bind, List.append_assoc, h]
  exact h' rest

/-- A value that is only put in other words takes no more bytes. -/
theorem Reads.map {reader : Body α} {bs : Bytes} {a : α} (h : Reads reader bs a) (f : α → β) :
    Reads (reader >>= fun a => Pure.pure (f a)) bs (f a) := by
  have hmap : Reads (reader >>= fun a => Pure.pure (f a)) (bs ++ []) (f a) :=
    h.bind (Reads.pure (f a))
  rwa [List.append_nil] at hmap

theorem Reads.fmap {reader : Body α} {bs : Bytes} {a : α} (h : Reads reader bs a) (f : α → β) :
    Reads (f <$> reader) bs (f a) := by
  intro rest
  rw [StateT.run_map, h]
  rfl

/-! ## Words and strings -/

theorem reads_take {bs : Bytes} {n : Nat} (h : bs.length = n) : Reads (take n) bs bs := by
  intro rest
  subst h
  have hsplit : Bytes.split? bs.length (bs ++ rest) = some (bs, rest) := by
    rw [Bytes.split?_eq, if_pos (by simp), List.take_left, List.drop_left]
  show take bs.length (bs ++ rest) = _
  unfold take
  rw [hsplit]

theorem reads_uint8 (b : UInt8) : Reads uint8 [b] b := by
  have h : Reads uint8 [b] (UInt8.ofNat (Bytes.value [b])) :=
    (reads_take (show [b].length = 1 from rfl)).map fun bs => UInt8.ofNat (Bytes.value bs)
  simpa [Bytes.value] using h

theorem reads_int16_of_length {bs : Bytes} (h : bs.length = 2) :
    Reads int16 bs (Bytes.toInt16 bs) :=
  (reads_take h).map Bytes.toInt16

theorem reads_int32_of_length {bs : Bytes} (h : bs.length = 4) :
    Reads int32 bs (Bytes.toInt32 bs) :=
  (reads_take h).map Bytes.toInt32

theorem reads_int16 (w : Int16) : Reads int16 (Bytes.ofInt16 w) w := by
  have h := reads_int16_of_length (Bytes.length_bigEndian 2 w.toUInt16.toNat)
  rwa [← Bytes.ofInt16, Bytes.toInt16_ofInt16] at h

theorem reads_int32 (w : Int32) : Reads int32 (Bytes.ofInt32 w) w := by
  have h := reads_int32_of_length (Bytes.length_bigEndian 4 w.toUInt32.toNat)
  rwa [← Bytes.ofInt32, Bytes.toInt32_ofInt32] at h

theorem string_run (bs : Bytes) : string.run bs =
    if 0 ∈ bs then
      .ok (Utf8.decodeLossy (bs.takeWhile (· ≠ 0)), (bs.dropWhile (· ≠ 0)).drop 1)
    else .error .unterminatedString := rfl

/-- Bytes up to a zero are read as their text, broken parts replaced. -/
theorem reads_string_of_bytes {cs : Bytes} (h : 0 ∉ cs) :
    Reads string (Wire.cstring cs) (Utf8.decodeLossy cs) := by
  intro rest
  have hne : ∀ b ∈ cs, decide (b ≠ 0) = true := fun b hb =>
    decide_eq_true fun hzero => h (hzero ▸ hb)
  rw [Wire.cstring, List.append_assoc, List.singleton_append, string_run, if_pos (by simp),
    List.takeWhile_append_of_pos hne, List.dropWhile_append_of_pos hne]
  simp

theorem reads_string {s : String} (h : Wire.IsText s) : Reads string (Wire.string s) s := by
  have hbytes := reads_string_of_bytes (Utf8.zero_notMem_encode h)
  rwa [Utf8.decodeLossy_encode] at hbytes

/-! ## Lists -/

theorem reads_times {item : Body α} {write : α → Bytes} {xs : List α}
    (h : ∀ x ∈ xs, Reads item (write x) x) :
    Reads (times item xs.length) (xs.flatMap write) xs := by
  induction xs with
  | nil => exact .pure []
  | cons x xs ih =>
    obtain ⟨hx, hxs⟩ := List.forall_mem_cons.1 h
    exact hx.bind ((ih hxs).map (x :: ·))

theorem reads_counted {item : Body α} {write : α → Bytes} {xs : List α}
    (hcount : xs.length ≤ maxCount) (h : ∀ x ∈ xs, Reads item (write x) x) :
    Reads (counted item) (Wire.counted write xs) xs := by
  refine (reads_int16_of_length (Bytes.length_bigEndian 2 xs.length)).bind ?_
  rw [← Wire.count, Bytes.toInt16_count hcount]
  exact reads_times h

/-- Types are read by their codes. -/
theorem reads_types {types : List Oid} (hcount : types.length ≤ maxCount) (f : List Oid → α) :
    Reads (counted int32 >>= fun codes => Pure.pure (f (codes.map Oid.mk)))
      (Wire.counted (fun o => Bytes.ofInt32 o.code) types) (f types) := by
  have hreads : Reads (counted int32) (Wire.counted Bytes.ofInt32 (types.map Oid.code))
      (types.map Oid.code) :=
    reads_counted (by rw [List.length_map]; exact hcount) fun code _ => reads_int32 code
  have hmap := hreads.map fun codes => f (codes.map Oid.mk)
  rw [List.map_map, show Oid.mk ∘ Oid.code = id from rfl, List.map_id] at hmap
  rw [Wire.counted_map] at hmap
  exact hmap

/-- Where something is left, a reader that may stop at the end goes on. -/
theorem Reads.unlessEnd {next : Body α} {bs : Bytes} {a b : α} (h : Reads next bs a)
    (hbs : bs ≠ []) :
    Reads (do if (← get) = [] then return b else next) bs a := by
  intro rest
  have hne : bs ++ rest ≠ [] := by simp [hbs]
  show ((if bs ++ rest = [] then return b else next : Body α).run (bs ++ rest)) = _
  rw [if_neg hne]
  exact h rest

theorem reads_reportFields {listed : List (UInt8 × String)}
    (h : ∀ f ∈ listed, f.1 ≠ 0 ∧ Wire.IsText f.2) (fields : ReportFields) {bound : Nat}
    (hbound : listed.length < bound) :
    Reads (reportFields bound fields) (Wire.report listed) (fields.collect listed) := by
  induction listed generalizing fields bound with
  | nil =>
    obtain ⟨bound, rfl⟩ : ∃ n, bound = n + 1 := ⟨bound - 1, by omega⟩
    unfold reportFields
    refine Reads.unlessEnd ?_ (by simp [Wire.report])
    exact (reads_uint8 0).bind (.pure fields)
  | cons f listed ih =>
    obtain ⟨⟨hkey, htext⟩, hlisted⟩ := List.forall_mem_cons.1 h
    obtain ⟨bound, rfl⟩ : ∃ n, bound = n + 1 := ⟨bound - 1, by omega⟩
    have hbytes : Wire.report (f :: listed) = [f.1] ++ (Wire.string f.2 ++ Wire.report listed) := by
      simp [Wire.report]
    rw [hbytes]
    unfold reportFields
    refine Reads.unlessEnd ((reads_uint8 f.1).bind ?_) (by simp)
    rw [if_neg hkey]
    exact (reads_string htext).bind (ih hlisted _ (by simpa using hbound))

/-- A report takes at least two bytes for each field, so that its bound is never met. -/
theorem length_le_report (listed : List (UInt8 × String)) :
    listed.length < (Wire.report listed).length := by
  induction listed with
  | nil => exact Nat.one_pos
  | cons f listed ih =>
    simp only [Wire.report, List.flatMap_cons, List.length_append, List.length_cons] at ih ⊢
    omega

theorem reads_report {listed : List (UInt8 × String)} {fields : ReportFields}
    (hperm : listed.Perm fields) (hfits : fields.Fits) :
    Reads report (Wire.report listed) fields := by
  intro rest
  have hlisted : ∀ f ∈ listed, f.1 ≠ 0 ∧ Wire.IsText f.2 := fun f hf =>
    hfits.2 f (hperm.subset hf)
  have hbound : listed.length < (Wire.report listed ++ rest).length := by
    have := length_le_report listed
    rw [List.length_append]
    omega
  have := reads_reportFields hlisted [] hbound rest
  rwa [ReportFields.collect_eq hperm hfits.1] at this

theorem reads_mechanisms {names : List String} (h : ∀ name ∈ names, name ≠ "" ∧ Wire.IsText name)
    {bound : Nat} (hbound : names.length < bound) :
    Reads (mechanisms bound) (Wire.mechanisms names) names := by
  induction names generalizing bound with
  | nil =>
    obtain ⟨bound, rfl⟩ : ∃ n, bound = n + 1 := ⟨bound - 1, by omega⟩
    unfold mechanisms
    refine Reads.unlessEnd ?_ (by simp [Wire.mechanisms])
    exact (reads_string (s := "") nofun).bind (.pure [])
  | cons name names ih =>
    obtain ⟨⟨hname, htext⟩, hnames⟩ := List.forall_mem_cons.1 h
    obtain ⟨bound, rfl⟩ : ∃ n, bound = n + 1 := ⟨bound - 1, by omega⟩
    have hbytes : Wire.mechanisms (name :: names) = Wire.string name ++ Wire.mechanisms names := by
      simp [Wire.mechanisms]
    rw [hbytes]
    unfold mechanisms
    refine Reads.unlessEnd ((reads_string htext).bind ?_) (by simp [Wire.string, Wire.cstring])
    rw [if_neg hname]
    exact (ih hnames (by simpa using hbound)).map (name :: ·)

theorem length_le_mechanisms (names : List String) :
    names.length < (Wire.mechanisms names).length := by
  induction names with
  | nil => exact Nat.one_pos
  | cons name names ih =>
    simp only [Wire.mechanisms, Wire.string, Wire.cstring, List.flatMap_cons, List.length_append,
      List.length_cons] at ih ⊢
    omega

/-! ## Parts of messages -/

theorem reads_format (f : Format) : Reads format (Wire.format f) f := by
  have h : Reads format (Wire.format f) (.ofCode f.code) :=
    (reads_int16 f.code).map Format.ofCode
  cases f <;> exact h

theorem reads_status (s : TransactionStatus) : Reads status [Wire.status s] s := by
  have h := reads_uint8 (Wire.status s)
  cases s <;> exact h.bind (.pure _)

/-- Each flag is read from its own bit. -/
theorem flag_flags : ∀ nullable autoincrement readOnly searchable : Bool,
    let word := Bytes.toInt16 (Bytes.bigEndian 2
      (nullable.toNat + autoincrement.toNat * 16 + readOnly.toNat * 256 + searchable.toNat * 4096))
    flag word 0 = nullable ∧ flag word 4 = autoincrement ∧ flag word 8 = readOnly ∧
      flag word 12 = searchable := by
  decide

theorem reads_origin {o : ColumnOrigin} (h : o.Fits) : Reads origin (Wire.origin o) o := by
  obtain ⟨hschema, htable, hcolumn, hcatalog⟩ := h
  obtain ⟨schema, table, column, catalog, nullable, autoincrement, readOnly, searchable⟩ := o
  unfold Wire.origin
  simp only [List.append_assoc]
  refine (reads_string hschema).bind ((reads_string htable).bind ((reads_string hcolumn).bind
    ((reads_string hcatalog).bind ?_)))
  have hflags := (reads_int16_of_length (Bytes.length_bigEndian 2 (Wire.flags
    ⟨schema, table, column, catalog, nullable, autoincrement, readOnly, searchable⟩))).map
      fun flags : Int16 => (⟨schema, table, column, catalog, flag flags 0, flag flags 4,
        flag flags 8, flag flags 12⟩ : ColumnOrigin)
  obtain ⟨h0, h4, h8, h12⟩ := flag_flags nullable autoincrement readOnly searchable
  unfold Wire.flags at hflags ⊢
  simp only [h0, h4, h8, h12] at hflags
  exact hflags

theorem reads_field {version : Int32} {f : FieldDescription} (h : f.Fits version) :
    Reads (field version) (Wire.field f) f := by
  obtain ⟨hname, hversion, horigin⟩ := h
  obtain ⟨name, tableOid, columnAttr, ⟨typeOid⟩, typeSize, typeModifier, format, origin⟩ := f
  unfold Wire.field
  simp only [List.append_assoc]
  refine (reads_string hname).bind ((reads_int32 _).bind ((reads_int16 _).bind
    ((reads_int32 _).bind ((reads_int16 _).bind ((reads_int32 _).bind
      ((reads_format _).bind ?_))))))
  by_cases hlayout : 1 ≤ version
  · obtain ⟨o, rfl⟩ := Option.isSome_iff_exists.1 (hversion.2 hlayout)
    rw [if_pos hlayout]
    exact ((reads_origin (horigin o rfl)).fmap some).map _
  · obtain rfl : origin = none := Option.not_isSome_iff_eq_none.1 fun h => hlayout (hversion.1 h)
    rw [if_neg hlayout]
    exact (Reads.pure none).map _

theorem reads_value {v : Option Bytes} (h : ∀ bs ∈ v, bs.length < 2147483648) :
    Reads value (Wire.value v) v := by
  cases v with
  | none => exact (reads_int32 (-1)).bind (.pure none)
  | some bs =>
    have hlength := Bytes.toInt32_length (h bs rfl)
    have hnonneg : ¬ Bytes.toInt32 (Wire.length bs.length) < 0 := by
      rw [Int32.lt_iff_toInt_lt, hlength]
      show ¬ (bs.length : Int) < 0
      omega
    refine (reads_int32_of_length (Bytes.length_bigEndian 4 bs.length)).bind ?_
    rw [← Wire.length, if_neg hnonneg, hlength]
    exact (reads_take (Int.toNat_natCast _).symm).map some

theorem reads_copyFormats {overall : Format} {columns : List Format}
    (h : columns.length ≤ maxCount) :
    Reads copyFormats (Wire.copyFormats overall columns) (overall, columns) := by
  have hcolumns := reads_counted h fun f _ => reads_format f
  unfold Wire.copyFormats
  cases overall with
  | text => exact (reads_uint8 0).bind (hcolumns.map (Format.text, ·))
  | binary => exact (reads_uint8 1).bind (hcolumns.map (Format.binary, ·))

/-! ## Bodies -/

/-- The reader takes these bytes for this value where they are all that is left. -/
def ReadsAll (reader : Body α) (bs : Bytes) (a : α) : Prop := reader.run bs = .ok (a, [])

theorem Reads.all {reader : Body α} {bs : Bytes} {a : α} (h : Reads reader bs a) :
    ReadsAll reader bs a := by
  have hnil := h []
  rwa [List.append_nil] at hnil

theorem Reads.bindAll {reader : Body α} {next : α → Body β} {bs bs' : Bytes} {a : α} {b : β}
    (h : Reads reader bs a) (h' : ReadsAll (next a) bs' b) :
    ReadsAll (reader >>= next) (bs ++ bs') b := by
  unfold ReadsAll
  rw [StateT.run_bind, h]
  exact h'

theorem ReadsAll.map {reader : Body α} {bs : Bytes} {a : α} (h : ReadsAll reader bs a) (f : α → β) :
    ReadsAll (reader >>= fun a => pure (f a)) bs (f a) := by
  unfold ReadsAll
  rw [StateT.run_bind, h]
  rfl

theorem readsAll_rest (bs : Bytes) : ReadsAll rest bs bs := rfl

theorem readsAll_authentication {request : AuthRequest} (h : request.Fits) :
    ReadsAll authentication (Wire.authentication request) request := by
  cases request with
  | ok => exact ((reads_int32 0).map fun _ => AuthRequest.ok).all
  | cleartext => exact ((reads_int32 3).map fun _ => AuthRequest.cleartext).all
  | md5 salt =>
    have hsalt := (reads_take (Bytes.length_bigEndian 4 salt.toNat)).map fun bs =>
      AuthRequest.md5 (Bytes.toUInt32 bs)
    rw [← Bytes.ofUInt32, Bytes.toUInt32_ofUInt32] at hsalt
    exact (reads_int32 5).bindAll hsalt.all
  | sasl offered =>
    have hoffered := (reads_mechanisms h (length_le_mechanisms offered)).map AuthRequest.sasl
    exact (reads_int32 10).bindAll hoffered.all
  | saslContinue data =>
    exact (reads_int32 11).bindAll ((readsAll_rest data).map AuthRequest.saslContinue)
  | saslFinal data =>
    exact (reads_int32 12).bindAll ((readsAll_rest data).map AuthRequest.saslFinal)
  | unsupported code =>
    have hother : code ≠ 0 ∧ code ≠ 3 ∧ code ≠ 5 ∧ code ≠ 10 ∧ code ≠ 11 ∧ code ≠ 12 := by
      simpa [AuthRequest.Fits] using h
    obtain ⟨h0, h3, h5, h10, h11, h12⟩ := hother
    have hcode : Reads authentication (Bytes.ofInt32 code ++ []) (.unsupported code) := by
      refine (reads_int32 code).bind ?_
      rw [if_neg h0, if_neg h3, if_neg h5, if_neg h10, if_neg h11, if_neg h12]
      exact .pure _
    rw [List.append_nil] at hcode
    exact hcode.all

/-- The values of a row are no longer than its body. -/
theorem length_le_of_mem_values {values : List (Option Bytes)} {v : Option Bytes} {bs : Bytes}
    (hv : v ∈ values) (hbs : bs ∈ v) :
    bs.length ≤ (Wire.counted Wire.value values).length := by
  obtain rfl := Option.mem_def.1 hbs
  obtain ⟨front, back, rfl⟩ := List.append_of_mem hv
  simp only [Wire.counted, Wire.value, List.flatMap_append, List.flatMap_cons, List.length_append]
  omega

/-- What a server writes for a message is read as the message. -/
theorem readsAll_message {version : Int32} {m : Backend} {body : Bytes} (hfits : m.Fits version)
    (hspells : m.Spells body) (hsize : body.length < 2147483648) :
    ReadsAll (message m.tag.toUInt8 version) body m := by
  cases m with
  | notice fields =>
    obtain ⟨listed, hperm, rfl⟩ := hspells
    exact ((reads_report hperm hfits).map Backend.notice).all
  | errorResponse fields =>
    obtain ⟨listed, hperm, rfl⟩ := hspells
    exact ((reads_report hperm hfits).map Backend.errorResponse).all
  | authentication request =>
    obtain rfl := hspells
    exact (readsAll_authentication hfits).map Backend.authentication
  | parameterStatus name value =>
    obtain rfl := hspells
    exact ((reads_string hfits.1).bind ((reads_string hfits.2).map _)).all
  | backendKeyData processId secretKey =>
    obtain rfl := hspells
    exact ((reads_int32 _).bind ((reads_int32 _).map _)).all
  | readyForQuery status =>
    obtain rfl := hspells
    exact ((reads_status status).map Backend.readyForQuery).all
  | rowDescription fields =>
    obtain rfl := hspells
    exact ((reads_counted hfits.1 fun f hf => reads_field (hfits.2 f hf)).map
      Backend.rowDescription).all
  | dataRow values =>
    obtain rfl := hspells
    refine ((reads_counted hfits fun v hv => reads_value fun bs hbs => ?_).map Backend.dataRow).all
    exact Nat.lt_of_le_of_lt (length_le_of_mem_values hv hbs) hsize
  | commandComplete tag =>
    obtain rfl := hspells
    exact ((reads_string hfits).map Backend.commandComplete).all
  | parameterDescription types =>
    obtain rfl := hspells
    exact (reads_types hfits Backend.parameterDescription).all
  | notification processId channel payload =>
    obtain rfl := hspells
    rw [List.append_assoc]
    exact ((reads_int32 _).bind ((reads_string hfits.1).bind ((reads_string hfits.2).map _))).all
  | copyData data =>
    obtain rfl := hspells
    exact (readsAll_rest _).map Backend.copyData
  | copyIn overall columns =>
    obtain rfl := hspells
    exact ((reads_copyFormats hfits).map fun formats => Backend.copyIn formats.1 formats.2).all
  | copyOut overall columns =>
    obtain rfl := hspells
    exact ((reads_copyFormats hfits).map fun formats => Backend.copyOut formats.1 formats.2).all
  | emptyQuery | parseComplete | bindComplete | closeComplete | portalSuspended | noData
  | copyDone =>
    obtain rfl := hspells
    rfl

end Body

theorem Backend.decode_of_spells {version : Int32} {m : Backend} {body : Bytes}
    (hfits : m.Fits version) (hspells : m.Spells body) (hsize : body.length < 2147483648) :
    decode m.tag.toUInt8 body version = .ok m := by
  unfold decode
  rw [show Body.message m.tag.toUInt8 version body = .ok (m, []) from
    Body.readsAll_message hfits hspells hsize]
  rfl

/-! ## Streams -/

namespace Receive

variable {version : Int32} {m : Backend} {frame rest : Bytes} {ending : Ending}

theorem take_run (n : Nat) (i : Incoming) :
    (take n).run i = ((Incoming.take n i).1.mapError Ending.error, (Incoming.take n i).2) := by
  simp only [take, run_bind, run_get, run_set]
  rcases Incoming.take n i with ⟨_ | bs, i'⟩ <;> rfl

theorem take_run_append {front : Bytes} {n : Nat} (h : front.length = n) :
    (take n).run ⟨front ++ rest, ending⟩ = (.ok front, ⟨rest, ending⟩) := by
  subst h
  rw [take_run, Incoming.take_append]
  rfl

theorem take_run_short {bs : Bytes} {n : Nat} (h : bs.length < n) :
    (take n).run ⟨bs, ending⟩ = (.error ending.error, ⟨[], ending⟩) := by
  rw [take_run, Incoming.take_short h]
  rfl

/-- The length of a frame as a word. -/
theorem toInt32_frameLength {n : Nat} (h : n ≤ maxFrameLength.toInt.toNat) :
    (Bytes.toInt32 (Wire.length n)).toInt = n :=
  Bytes.toInt32_length (Nat.lt_of_le_of_lt h (by decide))

/-- The header of a frame is read where its length is in bounds. -/
theorem header_run {tag : UInt8} {n : Nat} (low : 4 ≤ n) (high : n ≤ maxFrameLength.toInt.toNat) :
    header.run ⟨tag :: Wire.length n ++ rest, ending⟩ =
      (.ok (tag, Bytes.toInt32 (Wire.length n)), ⟨rest, ending⟩) := by
  have hword := toInt32_frameLength high
  have hsize : (tag :: Wire.length n).length = 5 := by simp [Wire.length]
  have hbounds : 4 ≤ Bytes.toInt32 (Wire.length n) ∧
      Bytes.toInt32 (Wire.length n) ≤ maxFrameLength := by
    rw [Int32.le_iff_toInt_le, Int32.le_iff_toInt_le, hword]
    exact ⟨Int.ofNat_le.2 low, by omega⟩
  unfold header
  rw [run_bind, take_run_append hsize]
  simp only [List.headD_cons, List.drop_succ_cons, List.drop_zero]
  rw [if_pos hbounds]
  rfl

/-- After its header a message is read from as many bytes as the header says. -/
theorem message_run {tag : UInt8} {n : Nat} (high : n + 4 ≤ maxFrameLength.toInt.toNat) :
    (message version).run ⟨tag :: Wire.length (n + 4) ++ rest, ending⟩ =
      (do
        let body ← take n
        match Backend.decode tag body version with
        | .ok m => return m
        | .error v => throw (.violation v) : Receive Backend).run ⟨rest, ending⟩ := by
  have hlength : (Bytes.toInt32 (Wire.length (n + 4))).toInt.toNat - 4 = n := by
    rw [toInt32_frameLength high]
    omega
  unfold message
  rw [run_bind, header_run (Nat.le_add_left 4 n) high]
  dsimp only
  generalize (Bytes.toInt32 (Wire.length (n + 4))).toInt.toNat - 4 = size at hlength ⊢
  subst hlength
  rfl

/-- A frame is read as its message, and what follows it is left alone. -/
theorem message_frame (h : m.Frames version frame) :
    (message version).run ⟨frame ++ rest, ending⟩ = (.ok m, ⟨rest, ending⟩) := by
  obtain ⟨hfits, body, hspells, hsize, rfl⟩ := h
  have hshort : body.length < 2147483648 :=
    Nat.lt_of_le_of_lt (Nat.le_of_add_right_le hsize) (by decide)
  unfold Wire.pack
  rw [List.append_assoc, message_run hsize, run_bind, take_run_append rfl]
  simp only [Backend.decode_of_spells hfits hspells hshort]
  rfl

/-- A frame that is cut short is read as the end of the stream. -/
theorem message_cut (h : m.Frames version frame) {n : Nat} (hn : n < frame.length) :
    (message version).run ⟨frame.take n, ending⟩ = (.error ending.error, ⟨[], ending⟩) := by
  obtain ⟨-, body, -, hsize, rfl⟩ := h
  have hheader : (m.tag.toUInt8 :: Wire.length (body.length + 4)).length = 5 := by
    simp [Wire.length]
  rw [Wire.pack, List.length_append, hheader] at hn
  rw [Wire.pack]
  by_cases hinside : n < 5
  · unfold message header
    rw [run_bind, run_bind, take_run_short (by rw [List.length_take]; omega)]
  · rw [List.take_append, List.take_of_length_le (by omega), message_run hsize, run_bind,
      take_run_short (by rw [List.length_take]; omega)]

theorem messagesUpTo_succ (bound : Nat) (i : Incoming) :
    messagesUpTo version (bound + 1) i =
      match (message version).run i with
      | (.error e, i) => ([], e, i)
      | (.ok m, i) =>
        let (ms, e, i) := messagesUpTo version bound i
        (m :: ms, e, i) := rfl

/-- All frames of a stream are read, and then what is after them fails. -/
theorem messagesUpTo_frames {ms : List Backend} {frames : List Bytes} {e : Error} {i : Incoming}
    (hframes : List.Forall₂ (Backend.Frames version) ms frames)
    (hrest : (message version).run ⟨rest, ending⟩ = (.error e, i)) {bound : Nat}
    (hbound : ms.length < bound) :
    messagesUpTo version bound ⟨frames.flatten ++ rest, ending⟩ = (ms, e, i) := by
  obtain ⟨bound, rfl⟩ : ∃ n, bound = n + 1 := ⟨bound - 1, by omega⟩
  induction hframes generalizing bound with
  | nil => rw [messagesUpTo_succ, List.flatten_nil, List.nil_append, hrest]
  | @cons m frame ms frames hframe hframes ih =>
    obtain ⟨bound, rfl⟩ : ∃ n, bound = n + 1 := ⟨bound - 1, by simp at hbound; omega⟩
    rw [messagesUpTo_succ, List.flatten_cons, List.append_assoc, message_frame hframe]
    simp only [ih bound (by simpa using hbound)]

theorem length_le_flatten {ms : List Backend} {frames : List Bytes}
    (hframes : List.Forall₂ (Backend.Frames version) ms frames) :
    ms.length ≤ frames.flatten.length := by
  induction hframes with
  | nil => exact Nat.le_refl 0
  | @cons m frame ms frames hframe hframes ih =>
    obtain ⟨-, body, -, -, rfl⟩ := hframe
    rw [List.length_cons, List.flatten_cons, List.length_append, Wire.pack, List.cons_append,
      List.length_cons]
    omega

theorem messages_frames {ms : List Backend} {frames : List Bytes} {e : Error} {i : Incoming}
    (hframes : List.Forall₂ (Backend.Frames version) ms frames)
    (hrest : (message version).run ⟨rest, ending⟩ = (.error e, i)) :
    messages version ⟨frames.flatten ++ rest, ending⟩ = (ms, e, i) := by
  have hlength := length_le_flatten hframes
  refine messagesUpTo_frames hframes hrest ?_
  show ms.length < (frames.flatten ++ rest).length + 1
  rw [List.length_append]
  omega

/-- Reading undoes writing, message by message. A stream that ends after its last frame gives all
messages, one that ends inside the last frame all but the last, and then it is closed. -/
theorem messages_of_frames {ms : List Backend} {frames : List Bytes}
    (hframes : List.Forall₂ (Backend.Frames version) ms frames) :
    messages version ⟨frames.flatten, .closed⟩ = (ms, .connectionClosed, ⟨[], .closed⟩) ∧
      ∀ n, frames.dropLast.flatten.length ≤ n → n < frames.flatten.length →
        messages version ⟨frames.flatten.take n, .closed⟩ =
          (ms.dropLast, .connectionClosed, ⟨[], .closed⟩) := by
  constructor
  · have hend : (message version).run ⟨[], .closed⟩ =
        (.error .connectionClosed, ⟨[], .closed⟩) := rfl
    simpa using messages_frames hframes hend
  · intro n hfront hn
    obtain rfl | ⟨front, last, rfl⟩ := List.eq_nil_or_concat' frames
    · cases hn
    -- The last message is the one of the last frame.
    have hfronts := List.forall₂_take_append _ _ _ hframes
    have hlasts := List.forall₂_drop_append _ _ _ hframes
    generalize hback : ms.drop front.length = back at hlasts
    obtain - | ⟨hlast, hnone⟩ := hlasts
    cases hnone
    have hms := List.take_append_drop front.length ms
    rw [hback] at hms
    rw [List.dropLast_concat] at hfront
    rw [List.flatten_append, List.flatten_singleton, List.length_append] at hn
    have hcut : (message version).run ⟨last.take (n - front.flatten.length), .closed⟩ =
        (.error .connectionClosed, ⟨[], .closed⟩) :=
      message_cut hlast (by omega)
    rw [← hms, List.dropLast_concat, List.flatten_append, List.flatten_singleton, List.take_append,
      List.take_of_length_le hfront]
    exact messages_frames hfronts hcut

/-- A notice whose fields come out of order, a row with a missing and an empty value, and the end of
a cycle; cut inside the last frame, the first two. -/
theorem messages_of_frames_notice :
    let ms : List Backend :=
      [.notice [(77, "x"), (83, "N")], .dataRow [none, some []], .readyForQuery .idle]
    let frames : List Bytes :=
      [[78, 0, 0, 0, 11, 83, 78, 0, 77, 120, 0, 0],
        [68, 0, 0, 0, 14, 0, 2, 255, 255, 255, 255, 0, 0, 0, 0], [90, 0, 0, 0, 5, 73]]
    List.Forall₂ (Backend.Frames 0) ms frames ∧
      messages 0 ⟨frames.flatten, .closed⟩ = (ms, .connectionClosed, ⟨[], .closed⟩) ∧
      messages 0 ⟨frames.flatten.take 30, .closed⟩ =
        (ms.dropLast, .connectionClosed, ⟨[], .closed⟩) := by
  have hframes : List.Forall₂ (Backend.Frames 0)
      [.notice [(77, "x"), (83, "N")], .dataRow [none, some []], .readyForQuery .idle]
      [[78, 0, 0, 0, 11, 83, 78, 0, 77, 120, 0, 0],
        [68, 0, 0, 0, 14, 0, 2, 255, 255, 255, 255, 0, 0, 0, 0], [90, 0, 0, 0, 5, 73]] := by
    refine .cons ⟨?_, _, ⟨[(83, "N"), (77, "x")], .swap _ _ _, rfl⟩, by decide, by decide⟩
      (.cons ⟨?_, _, rfl, by decide, by decide⟩
        (.cons ⟨trivial, _, rfl, by decide, by decide⟩ .nil))
    · exact ⟨by decide, by decide⟩
    · show 2 ≤ maxCount
      decide
  exact ⟨hframes, (messages_of_frames hframes).1,
    (messages_of_frames hframes).2 30 (by decide) (by decide)⟩

end Receive

end PgClient
