/-
  PgClient.Proofs.Message.Packets

  What a server makes of the packets that carry the data of a caller: the startup
  packet, a Parse and a Bind. Its readers go by the layout alone. They give back
  what was written exactly if no text holds the byte that ends it, no key is the
  empty one that ends the parameters, and counts and lengths fit their words.
-/
import PgClient.Codec.Context
import PgClient.Proofs.Message.Decoding

namespace PgClient

open Steps

/-! ## Zeros in texts -/

namespace Utf8

theorem zero_notMem_encode_iff {s : String} : 0 ∉ encode s ↔ Wire.IsText s :=
  ⟨fun h hmem => h (List.mem_flatMap.2 ⟨'\x00', hmem, by decide⟩), zero_notMem_encode⟩

theorem encode_eq_nil_iff {s : String} : encode s = [] ↔ s = "" := by
  constructor
  · intro h
    rw [← decodeLossy_encode s, h]
    rfl
  · rintro rfl
    rfl

end Utf8

namespace CodecContext

theorem latin1Byte_eq_zero_iff {c : Char} {b : UInt8} (h : latin1Byte c = .ok b) :
    b = 0 ↔ c = '\x00' := by
  unfold latin1Byte at h
  by_cases small : c.toNat < 256
  · rw [if_pos small] at h
    cases h
    constructor
    · intro hzero
      have hcode := congrArg UInt8.toNat hzero
      rw [UInt8.toNat_ofNat', Nat.mod_eq_of_lt small] at hcode
      rw [← Char.ofNat_toNat c, hcode]
      rfl
    · rintro rfl
      rfl
  · rw [if_neg small] at h
    cases h

theorem zero_mem_latin1_iff {cs : List Char} {bs : Bytes} (h : cs.mapM latin1Byte = .ok bs) :
    0 ∈ bs ↔ '\x00' ∈ cs := by
  have hbytes := mapM_eq_ok_iff.1 h
  clear h
  induction hbytes with
  | nil => exact ⟨nofun, nofun⟩
  | cons hb _ ih =>
    have hfirst := latin1Byte_eq_zero_iff hb
    rw [List.mem_cons, List.mem_cons]
    exact or_congr (eq_comm.trans (hfirst.trans eq_comm)) ih

/-- In every client encoding only the character zero is written with a zero. -/
theorem zero_notMem_iff {ctx : CodecContext} {s : String} {bs : Bytes}
    (h : ctx.encodeText s = .ok bs) : 0 ∉ bs ↔ Wire.IsText s := by
  unfold encodeText at h
  cases hencoding : ctx.encoding with
  | utf8 | sqlAscii =>
    rw [hencoding] at h
    cases h
    exact Utf8.zero_notMem_encode_iff
  | latin1 =>
    rw [hencoding] at h
    exact not_congr (zero_mem_latin1_iff h)

end CodecContext

namespace Wire

/-- The bytes of some parameters, up to the empty key after them. -/
def parameters (params : List (Bytes × Bytes)) : Bytes :=
  params.flatMap (fun p => cstring p.1 ++ cstring p.2) ++ [0]

/-- The bytes of a key and its value. -/
def texts (p : String × String) : Bytes × Bytes := (Utf8.encode p.1, Utf8.encode p.2)

end Wire

/-! ## The server's readers -/

namespace Body

variable {α β : Type}

/-- Bytes up to their terminator. -/
def cstring : Body Bytes := fun bs =>
  if 0 ∈ bs then .ok (bs.takeWhile (· ≠ 0), (bs.dropWhile (· ≠ 0)).drop 1)
  else .error .unterminatedString

/-- Keys and values up to an empty key. -/
def parameters : Nat → Body (List (Bytes × Bytes))
  | 0 => throw .unterminatedString
  | bound + 1 => do
    let key ← cstring
    if key = [] then return []
    let value ← cstring
    return (key, value) :: (← parameters bound)

/-- The version that a client asks for, and its parameters. -/
def startup : Body (Int32 × List (Bytes × Bytes)) := do
  let version ← int32
  return (version, ← parameters (← get).length)

/-- The name of a statement, its text and the types of its parameters. -/
def parse : Body (Bytes × Bytes × List Oid) := do
  let name ← cstring
  let query ← cstring
  return (name, query, (← counted int32).map Oid.mk)

/-- A parameter with its length in front. Only the length -1 is that of a missing one, and no other
length is negative. -/
def parameter : Body (Option Bytes) := do
  let length ← int32
  if length = -1 then return none
  if length < 0 then throw (.frameLength length 0)
  return some (← take length.toInt.toNat)

/-- The portal and the statement of a Bind, the format codes of the parameters, the parameters, and
the format codes of the result columns. -/
def binding : Body (Bytes × Bytes × List Int16 × List (Option Bytes) × List Int16) := do
  let portal ← cstring
  let statement ← cstring
  let formats ← counted int16
  let params ← counted parameter
  return (portal, statement, formats, params, ← counted int16)

/-- What a reader makes of as many bytes as the word in front of them tells, that word counted,
and what it leaves of them. -/
def sized (reader : Body α) : Body (α × Bytes) := do
  let length ← int32
  if 4 ≤ length then
    let part ← take (length.toInt.toNat - 4)
    liftM (reader.run part)
  else throw (.frameLength length 0)

/-- A tag, and what a reader makes of the rest of the frame. -/
def tagged (reader : Body α) : Body (UInt8 × α × Bytes) := do
  return (← uint8, ← sized reader)

/-! ## What can be read at all -/

theorem bind_eq_ok {reader : Body α} {next : α → Body β} {bs rest : Bytes} {b : β} :
    (reader >>= next).run bs = .ok (b, rest) ↔
      ∃ a mid, reader.run bs = .ok (a, mid) ∧ (next a).run mid = .ok (b, rest) := by
  rw [StateT.run_bind, bind_eq_ok_iff, Prod.exists]

theorem pure_eq_ok {a b : α} {bs rest : Bytes} :
    (pure a : Body α).run bs = .ok (b, rest) ↔ a = b ∧ bs = rest := by
  rw [StateT.run_pure]
  exact ⟨fun h => Prod.mk.inj (Except.ok.inj h), fun ⟨ha, hbs⟩ => by rw [ha, hbs]; rfl⟩

theorem take_eq_ok {n : Nat} {bs part rest : Bytes} (h : (take n).run bs = .ok (part, rest)) :
    bs = part ++ rest ∧ part.length = n := by
  unfold take at h
  by_cases enough : n ≤ bs.length
  · rw [StateT.run, Bytes.split?_eq, if_pos enough] at h
    cases h
    exact ⟨(List.take_append_drop n bs).symm, List.length_take_of_le enough⟩
  · rw [StateT.run, Bytes.split?_eq, if_neg enough] at h
    cases h

/-- No terminator is read as a part of a text. -/
theorem zero_notMem_of_cstring {bs text rest : Bytes} (h : cstring.run bs = .ok (text, rest)) :
    0 ∉ text := by
  change (if 0 ∈ bs then _ else _) = _ at h
  by_cases terminated : 0 ∈ bs
  · rw [if_pos terminated] at h
    cases h
    intro hmem
    have hne := List.all_eq_true.1 List.all_takeWhile _ hmem
    exact of_decide_eq_true hne rfl
  · rw [if_neg terminated] at h
    cases h

/-- Whatever the bytes are: no empty key is read, and no terminator as a part of a key or value. -/
theorem texts_of_parameters {bound : Nat} {bs rest : Bytes} {params : List (Bytes × Bytes)}
    (h : (parameters bound).run bs = .ok (params, rest)) :
    ∀ p ∈ params, p.1 ≠ [] ∧ 0 ∉ p.1 ∧ 0 ∉ p.2 := by
  induction bound generalizing bs rest params with
  | zero => cases h
  | succ bound ih =>
    obtain ⟨key, mid, hkey, h⟩ := bind_eq_ok.1 h
    by_cases last : key = []
    · rw [if_pos last] at h
      obtain ⟨rfl, -⟩ := pure_eq_ok.1 h
      exact fun _ => nofun
    · rw [if_neg last] at h
      obtain ⟨value, mid', hvalue, h⟩ := bind_eq_ok.1 h
      obtain ⟨others, mid'', hothers, h⟩ := bind_eq_ok.1 h
      obtain ⟨rfl, -⟩ := pure_eq_ok.1 h
      exact List.forall_mem_cons.2
        ⟨⟨last, zero_notMem_of_cstring hkey, zero_notMem_of_cstring hvalue⟩, ih hothers⟩

theorem length_of_times {item : Body α} {n : Nat} {bs rest : Bytes} {xs : List α}
    (h : (times item n).run bs = .ok (xs, rest)) : xs.length = n := by
  induction n generalizing bs rest xs with
  | zero =>
    obtain ⟨rfl, -⟩ := pure_eq_ok.1 h
    rfl
  | succ n ih =>
    obtain ⟨x, mid, -, h⟩ := bind_eq_ok.1 h
    obtain ⟨others, mid', hothers, h⟩ := bind_eq_ok.1 h
    obtain ⟨rfl, -⟩ := pure_eq_ok.1 h
    rw [List.length_cons, ih hothers]

/-- A list is never longer than its count can tell. -/
theorem length_of_counted {item : Body α} {bs rest : Bytes} {xs : List α}
    (h : (counted item).run bs = .ok (xs, rest)) : xs.length ≤ maxCount := by
  obtain ⟨n, mid, -, h⟩ := bind_eq_ok.1 h
  have hlarge : n.toInt < 32768 := n.toInt_lt
  rw [length_of_times h, maxCount]
  omega

/-! ## What is read back -/

theorem reads_cstring {text : Bytes} (h : 0 ∉ text) : Reads cstring (Wire.cstring text) text := by
  intro rest
  have hne : ∀ b ∈ text, decide (b ≠ 0) = true := fun b hb =>
    decide_eq_true fun hzero => h (hzero ▸ hb)
  have hbytes : Wire.cstring text ++ rest = text ++ 0 :: rest := by simp [Wire.cstring]
  show (if 0 ∈ Wire.cstring text ++ rest then _ else _) = _
  rw [hbytes, if_pos (by simp), List.takeWhile_append_of_pos hne,
    List.dropWhile_append_of_pos hne]
  simp

theorem reads_parameters {params : List (Bytes × Bytes)}
    (h : ∀ p ∈ params, p.1 ≠ [] ∧ 0 ∉ p.1 ∧ 0 ∉ p.2) {bound : Nat}
    (hbound : params.length < bound) :
    Reads (parameters bound) (Wire.parameters params) params := by
  induction params generalizing bound with
  | nil =>
    obtain ⟨bound, rfl⟩ : ∃ n, bound = n + 1 := ⟨bound - 1, by omega⟩
    exact (reads_cstring (List.not_mem_nil (a := 0))).bind (.pure [])
  | cons p params ih =>
    obtain ⟨⟨hne, hkey, hvalue⟩, hparams⟩ := List.forall_mem_cons.1 h
    obtain ⟨bound, rfl⟩ : ∃ n, bound = n + 1 := ⟨bound - 1, by omega⟩
    rw [Wire.parameters, List.flatMap_cons, List.append_assoc, List.append_assoc]
    refine (reads_cstring hkey).bind ?_
    rw [if_neg hne]
    refine (reads_cstring hvalue).bind ?_
    exact (ih hparams (by simpa using hbound)).map (p :: ·)

/-- Every parameter takes two bytes at least, so that the bound is never met. -/
theorem length_lt_parameters (params : List (Bytes × Bytes)) :
    params.length < (Wire.parameters params).length := by
  induction params with
  | nil => exact Nat.one_pos
  | cons p params ih =>
    simp only [Wire.parameters, List.flatMap_cons, List.length_append, List.length_cons,
      Wire.cstring] at ih ⊢
    omega

theorem reads_startup {version : Int32} {params : List (Bytes × Bytes)}
    (h : ∀ p ∈ params, p.1 ≠ [] ∧ 0 ∉ p.1 ∧ 0 ∉ p.2) :
    Reads startup (Bytes.ofInt32 version ++ Wire.parameters params) (version, params) := by
  refine (reads_int32 version).bind fun rest => ?_
  have hbound : params.length < (Wire.parameters params ++ rest).length := by
    have := length_lt_parameters params
    rw [List.length_append]
    omega
  exact (reads_parameters h hbound).map (version, ·) rest

theorem reads_parse {name query : Bytes} {types : List Oid} (hname : 0 ∉ name)
    (hquery : 0 ∉ query) (hcount : types.length ≤ maxCount) :
    Reads parse (Wire.cstring name ++ Wire.cstring query ++
      Wire.counted (fun o => Bytes.ofInt32 o.code) types) (name, query, types) := by
  rw [List.append_assoc]
  exact (reads_cstring hname).bind ((reads_cstring hquery).bind
    (reads_types hcount fun types => (name, query, types)))

/-- A missing parameter and an empty one are told apart. -/
theorem reads_parameter {v : Option Bytes} (h : ∀ bs ∈ v, bs.length < 2147483648) :
    Reads parameter (Wire.value v) v := by
  cases v with
  | none => exact (reads_int32 (-1)).bind (.pure none)
  | some bs =>
    have hlength := Bytes.toInt32_length (h bs rfl)
    have hnonneg : ¬ Bytes.toInt32 (Wire.length bs.length) < 0 := by
      rw [Int32.lt_iff_toInt_lt, hlength]
      show ¬ (bs.length : Int) < 0
      omega
    have hpresent : Bytes.toInt32 (Wire.length bs.length) ≠ -1 := by
      intro hmissing
      rw [hmissing] at hnonneg
      exact hnonneg (by decide)
    refine (reads_int32_of_length (Bytes.length_bigEndian 4 bs.length)).bind ?_
    rw [← Wire.length, if_neg hpresent, if_neg hnonneg, hlength]
    exact (reads_take (Int.toNat_natCast _).symm).map some

theorem reads_binding {portal statement : Bytes} {formats results : List Int16}
    {params : List (Option Bytes)} (hportal : 0 ∉ portal) (hstatement : 0 ∉ statement)
    (hformats : formats.length ≤ maxCount) (hparams : params.length ≤ maxCount)
    (hsizes : ∀ v ∈ params, ∀ bs ∈ v, bs.length < 2147483648)
    (hresults : results.length ≤ maxCount) :
    Reads binding (Wire.cstring portal ++ Wire.cstring statement ++
        Wire.counted Bytes.ofInt16 formats ++ Wire.counted Wire.value params ++
        Wire.counted Bytes.ofInt16 results) (portal, statement, formats, params, results) := by
  simp only [List.append_assoc]
  refine (reads_cstring hportal).bind ((reads_cstring hstatement).bind ?_)
  refine (reads_counted hformats fun w _ => reads_int16 w).bind ?_
  refine (reads_counted hparams fun v hv => reads_parameter (hsizes v hv)).bind ?_
  exact (reads_counted hresults fun w _ => reads_int16 w).map
    fun results => (portal, statement, formats, params, results)

/-- A part of its own length is read to its last byte exactly if the reader takes all of it, and
its length fits the word. -/
theorem sized_iff {reader : Body α} {body : Bytes} {a : α} :
    (sized reader).run (Wire.length (body.length + 4) ++ body) = .ok ((a, []), []) ↔
      reader.run body = .ok (a, []) ∧ body.length + 4 < 2147483648 := by
  have hword : int32.run (Wire.length (body.length + 4) ++ body) =
      .ok (Bytes.toInt32 (Wire.length (body.length + 4)), body) :=
    reads_int32_of_length (Bytes.length_bigEndian 4 _) body
  have hrun : (sized reader).run (Wire.length (body.length + 4) ++ body) =
      (if 4 ≤ Bytes.toInt32 (Wire.length (body.length + 4)) then do
          let part ← take ((Bytes.toInt32 (Wire.length (body.length + 4))).toInt.toNat - 4)
          liftM (reader.run part)
        else throw (.frameLength (Bytes.toInt32 (Wire.length (body.length + 4))) 0) :
          Body (α × Bytes)).run body := by
    rw [sized, StateT.run_bind, hword]
    rfl
  rw [hrun]
  constructor
  · intro h
    by_cases low : 4 ≤ Bytes.toInt32 (Wire.length (body.length + 4))
    · rw [if_pos low] at h
      obtain ⟨part, rest, htake, h⟩ := bind_eq_ok.1 h
      obtain ⟨hbody, hlength⟩ := take_eq_ok htake
      have hlow : 4 ≤ (Bytes.toInt32 (Wire.length (body.length + 4))).toInt :=
        Int32.le_iff_toInt_le.1 low
      have hhigh := (Bytes.toInt32 (Wire.length (body.length + 4))).toInt_lt
      obtain ⟨⟨a', left⟩, hreader, h⟩ := bind_eq_ok_iff.1 h
      cases h
      -- Nothing is left behind the part, so the part is the whole body.
      rw [List.append_nil] at hbody
      subst hbody
      refine ⟨hreader, ?_⟩
      omega
    · rw [if_neg low] at h
      cases h
  · rintro ⟨hreader, hsmall⟩
    have hlength := Bytes.toInt32_length hsmall
    rw [if_pos (Int32.le_iff_toInt_le.2 (by rw [hlength]; show (4 : Int) ≤ _; omega)), hlength]
    have htake : Reads (take (((body.length + 4 : Nat) : Int).toNat - 4)) body body :=
      reads_take (by omega)
    have hall := htake []
    rw [List.append_nil] at hall
    rw [StateT.run_bind, hall]
    show (liftM (reader.run body) : Body (α × Bytes)).run [] = _
    rw [hreader]
    rfl

theorem tagged_iff {reader : Body α} {tag : UInt8} {bs : Bytes} {a : α} {left : Bytes} :
    (tagged reader).run (tag :: bs) = .ok ((tag, a, left), []) ↔
      (sized reader).run bs = .ok ((a, left), []) := by
  have hrun : (tagged reader).run (tag :: bs) =
      (sized reader >>= fun read => pure (tag, read) : Body (UInt8 × α × Bytes)).run bs := by
    rw [tagged, StateT.run_bind, show uint8.run (tag :: bs) = .ok (tag, bs) from reads_uint8 tag bs]
    rfl
  rw [hrun]
  constructor
  · intro h
    obtain ⟨read, mid, hread, h⟩ := bind_eq_ok.1 h
    obtain ⟨hpair, rfl⟩ := pure_eq_ok.1 h
    rw [hread, (Prod.mk.inj hpair).2]
  · intro h
    exact bind_eq_ok.2 ⟨_, _, h, pure_eq_ok.2 ⟨rfl, rfl⟩⟩

end Body

/-! ## The packets -/

namespace Frontend

/-- The length of a message fits the word that tells it. -/
def FitsLength (m : Frontend) : Prop := m.body.length + 4 < 2147483648

instance : DecidablePred FitsLength := fun m =>
  inferInstanceAs (Decidable (m.body.length + 4 < 2147483648))

/-- The parameters of a startup packet are read back, and nothing is left of it, exactly if all
keys and values are texts and no key is empty. -/
theorem startup_iff (version : Int32) (params : List (String × String)) :
    (Body.sized Body.startup).run (startup version params).encode =
        .ok (((version, params.map Wire.texts), []), []) ↔
      (∀ p ∈ params, p.1 ≠ "" ∧ Wire.IsText p.1 ∧ Wire.IsText p.2) ∧
        (startup version params).FitsLength := by
  have htexts : (∀ p ∈ params, p.1 ≠ "" ∧ Wire.IsText p.1 ∧ Wire.IsText p.2) ↔
      ∀ p ∈ params.map Wire.texts, p.1 ≠ [] ∧ 0 ∉ p.1 ∧ 0 ∉ p.2 := by
    rw [List.forall_mem_map]
    simp only [Wire.texts, ne_eq, Utf8.encode_eq_nil_iff, Utf8.zero_notMem_encode_iff]
  have hbody : (startup version params).body =
      Bytes.ofInt32 version ++ Wire.parameters (params.map Wire.texts) := by
    rw [body, List.append_assoc, Wire.parameters, List.flatMap_map]
    rfl
  refine Body.sized_iff.trans (and_congr_left' ?_)
  rw [htexts]
  constructor
  · intro h
    obtain ⟨_, _, -, h⟩ := Body.bind_eq_ok.1 h
    obtain ⟨_, _, -, h⟩ := Body.bind_eq_ok.1 h
    obtain ⟨read, _, hread, h⟩ := Body.bind_eq_ok.1 h
    obtain ⟨hpair, -⟩ := Body.pure_eq_ok.1 h
    rw [← (Prod.mk.inj hpair).2]
    exact Body.texts_of_parameters hread
  · intro h
    have hread : Body.Reads Body.startup (startup version params).body
        (version, params.map Wire.texts) := hbody ▸ Body.reads_startup h
    have hall := hread []
    rwa [List.append_nil] at hall

/-- A Parse is read back, and nothing is left of it, exactly if its name is a text, its query
holds no terminator, and its types can be counted. -/
theorem parse_iff (name : String) (query : Bytes) (types : List Oid) :
    (Body.tagged Body.parse).run (parse name query types).encode =
        .ok (('P'.toUInt8, (Utf8.encode name, query, types), []), []) ↔
      Wire.IsText name ∧ 0 ∉ query ∧ types.length ≤ maxCount ∧
        (parse name query types).FitsLength := by
  have hframe : (parse name query types).encode =
      'P'.toUInt8 :: (Wire.length ((parse name query types).body.length + 4) ++
        (parse name query types).body) := rfl
  rw [hframe, Body.tagged_iff, Body.sized_iff, ← and_assoc, ← and_assoc]
  refine and_congr_left' ?_
  rw [and_assoc, ← Utf8.zero_notMem_encode_iff]
  constructor
  · intro h
    obtain ⟨name', _, hname, h⟩ := Body.bind_eq_ok.1 h
    obtain ⟨query', _, hquery, h⟩ := Body.bind_eq_ok.1 h
    obtain ⟨types', _, htypes, h⟩ := Body.bind_eq_ok.1 h
    obtain ⟨hread, -⟩ := Body.pure_eq_ok.1 h
    simp only [Prod.mk.injEq] at hread
    obtain ⟨rfl, rfl, rfl⟩ := hread
    refine ⟨Body.zero_notMem_of_cstring hname, Body.zero_notMem_of_cstring hquery, ?_⟩
    rw [List.length_map]
    exact Body.length_of_counted htypes
  · rintro ⟨hname, hquery, hcount⟩
    have hread := Body.reads_parse hname hquery hcount []
    rwa [List.append_nil] at hread

/-- A Bind is read back, and nothing is left of it, exactly if it names texts and its lists can be
counted. The parameters come back as they are, missing ones apart from empty ones. -/
theorem bind_iff (portal statement : String) (formats : List Format)
    (params : List (Option Bytes)) (results : List Format) :
    (Body.tagged Body.binding).run (bind portal statement formats params results).encode =
        .ok (('B'.toUInt8, (Utf8.encode portal, Utf8.encode statement, formats.map Format.code,
          params, results.map Format.code), []), []) ↔
      Wire.IsText portal ∧ Wire.IsText statement ∧ formats.length ≤ maxCount ∧
        params.length ≤ maxCount ∧ results.length ≤ maxCount ∧
        (bind portal statement formats params results).FitsLength := by
  have hframe : (bind portal statement formats params results).encode =
      'B'.toUInt8 ::
        (Wire.length ((bind portal statement formats params results).body.length + 4) ++
          (bind portal statement formats params results).body) := rfl
  have hbody : (bind portal statement formats params results).body =
      Wire.cstring (Utf8.encode portal) ++ Wire.cstring (Utf8.encode statement) ++
        Wire.counted Bytes.ofInt16 (formats.map Format.code) ++ Wire.counted Wire.value params ++
        Wire.counted Bytes.ofInt16 (results.map Format.code) := by
    rw [Wire.counted_map, Wire.counted_map]
    rfl
  rw [hframe, Body.tagged_iff, Body.sized_iff, ← Utf8.zero_notMem_encode_iff,
    ← Utf8.zero_notMem_encode_iff]
  constructor
  · rintro ⟨h, hfits⟩
    obtain ⟨_, _, hportal, h⟩ := Body.bind_eq_ok.1 h
    obtain ⟨_, _, hstatement, h⟩ := Body.bind_eq_ok.1 h
    obtain ⟨_, _, hformats, h⟩ := Body.bind_eq_ok.1 h
    obtain ⟨_, _, hparams, h⟩ := Body.bind_eq_ok.1 h
    obtain ⟨_, _, hresults, h⟩ := Body.bind_eq_ok.1 h
    obtain ⟨hread, -⟩ := Body.pure_eq_ok.1 h
    simp only [Prod.mk.injEq] at hread
    obtain ⟨rfl, rfl, rfl, rfl, rfl⟩ := hread
    have hcount := Body.length_of_counted hformats
    have hcount' := Body.length_of_counted hresults
    rw [List.length_map] at hcount hcount'
    exact ⟨Body.zero_notMem_of_cstring hportal, Body.zero_notMem_of_cstring hstatement, hcount,
      Body.length_of_counted hparams, hcount', hfits⟩
  · rintro ⟨hportal, hstatement, hformats, hparams, hresults, hfits⟩
    refine ⟨?_, hfits⟩
    have hcodes (fs : List Format) (h : fs.length ≤ maxCount) :
        (fs.map Format.code).length ≤ maxCount := by
      rw [List.length_map]
      exact h
    have hsizes : ∀ v ∈ params, ∀ bs ∈ v, bs.length < 2147483648 := by
      intro v hv bs hbs
      have hsize := Body.length_le_of_mem_values hv hbs
      unfold FitsLength at hfits
      rw [hbody, List.length_append, List.length_append] at hfits
      omega
    have hread := Body.reads_binding hportal hstatement (hcodes _ hformats) hparams hsizes
      (hcodes _ hresults) []
    rw [List.append_nil] at hread
    rw [hbody]
    exact hread

end Frontend

end PgClient
