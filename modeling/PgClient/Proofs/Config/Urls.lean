/-
  PgClient.Proofs.Config.Urls

  Connection URLs are read back. A URL is written from its parts, and each part
  may hold any delimiter but the one that ends it. Numbers and words of the query
  may be spelled in several ways, and its pairs may stand in any order; a known
  key that is missing leaves its default.
-/
import Mathlib.Data.List.Basic
import PgClient.Proofs.Config.Texts
import PgClient.Text.Integer.Lemmas

namespace PgClient

open Steps

theorem Placeholder.Style.ofName_spelled {style : Style} {name : String}
    (h : name.map Char.toLower = style.name) : ofName name = .ok style := by
  have hexact : ofExactName? style.name = some style := by cases style <;> decide
  rw [ofName, h, hexact]

namespace Config

/-! ## Query keys -/

/-- The query keys that have a field of their own; any other key is an extra option. -/
inductive Key where
  | applicationName
  | maxPreparedStatements
  | style
  | autocommit
  | timeout
  | protocolVersion
  | credentialProvider

namespace Key

def all : List Key :=
  [applicationName, maxPreparedStatements, style, autocommit, timeout, protocolVersion,
    credentialProvider]

def name : Key → String
  | applicationName => "application_name"
  | maxPreparedStatements => "max_prepared_statements"
  | style => "paramstyle"
  | autocommit => "autocommit"
  | timeout => "timeout"
  | protocolVersion => "client_protocol_version"
  | credentialProvider => "credential_provider"

def names : List String := all.map name

/-- Two configurations hold the same under a key. -/
def Agrees (c d : Config) : Key → Prop
  | applicationName => c.applicationName = d.applicationName
  | maxPreparedStatements => c.maxPreparedStatements = d.maxPreparedStatements
  | style => c.style = d.style
  | autocommit => c.autocommit = d.autocommit
  | timeout => c.timeout = d.timeout
  | protocolVersion => c.protocolVersion = d.protocolVersion
  | credentialProvider => c.credentialProvider = d.credentialProvider

/-- The words for a switch that is on or off. -/
def words : Bool → List String
  | true => ["true", "on", "1"]
  | false => ["false", "off", "0"]

/-- A value spells what a configuration holds under a key. Words may have any letter case, and no
timeout is one of zero seconds. -/
def Spells (c : Config) (value : String) : Key → Prop
  | applicationName => c.applicationName = some value
  | maxPreparedStatements => Integer.Spells c.maxPreparedStatements.toNat value.toList
  | style => value.map Char.toLower = c.style.name
  | autocommit => value.map Char.toLower ∈ words c.autocommit
  | timeout => ∃ secs : UInt64, Integer.Spells secs.toNat value.toList ∧
      c.timeout = if secs = 0 then none else some ⟨secs, 0⟩
  | protocolVersion => Integer.Spells c.protocolVersion.toInt value.toList
  | credentialProvider => c.credentialProvider = value

/-- The plainest spelling of what a configuration holds under a key. -/
def value (c : Config) : Key → String
  | applicationName => c.applicationName.getD ""
  | maxPreparedStatements => String.ofList (Integer.natural c.maxPreparedStatements.toNat)
  | style => c.style.name
  | autocommit => if c.autocommit then "true" else "false"
  | timeout => String.ofList (Integer.natural (c.timeout.elim 0 Duration.secs).toNat)
  | protocolVersion => String.ofList (Integer.text c.protocolVersion.toInt)
  | credentialProvider => c.credentialProvider

/-- `d` with what `c` holds under a key. -/
def copy (c d : Config) : Key → Config
  | applicationName => { d with applicationName := c.applicationName }
  | maxPreparedStatements => { d with maxPreparedStatements := c.maxPreparedStatements }
  | style => { d with style := c.style }
  | autocommit => { d with autocommit := c.autocommit }
  | timeout => { d with timeout := c.timeout }
  | protocolVersion => { d with protocolVersion := c.protocolVersion }
  | credentialProvider => { d with credentialProvider := c.credentialProvider }

end Key

/-! ## URLs -/

/-- The parts of a connection URL, none of which holds what would end it. The port is there as it
is written, and so are the keys and values of the query. -/
structure Url where
  scheme : String
  user : String
  password : String
  host : String
  port : String
  database : String
  query : List (String × String)
  scheme_mem : scheme ∈ schemes
  user_plain : ':' ∉ user.toList ∧ '?' ∉ user.toList
  password_plain : '?' ∉ password.toList
  host_plain : '@' ∉ host.toList ∧ '/' ∉ host.toList ∧ '?' ∉ host.toList
  database_plain : database ≠ "" ∧ '@' ∉ database.toList ∧ '?' ∉ database.toList
  query_plain : ∀ p ∈ query, '=' ∉ p.1.toList ∧ '&' ∉ p.1.toList ∧ '&' ∉ p.2.toList

namespace Url

/-- A pair of the query as it is written. -/
def pairText (p : String × String) : String := p.1 ++ "=" ++ p.2

def text (u : Url) : String :=
  u.scheme ++ u.user ++ ":" ++ u.password ++ "@" ++ u.host ++ ":" ++ u.port ++ "/" ++ u.database ++
    "?" ++ "&".intercalate (u.query.map pairText)

/-- What a URL says: a configuration with these parts, in which each known key of the query has the
value spelled there and any other its default, and with the extra options in order. -/
structure Says (u : Url) (c : Config) : Prop where
  user : c.user = u.user
  password : c.password = some u.password
  host : c.host = u.host
  port : Integer.Spells c.port.toNat u.port.toList
  database : c.database = u.database
  known : ∀ (k : Key) (value : String), (k.name, value) ∈ u.query → k.Spells c value
  missing : ∀ k : Key, k.name ∉ u.query.map Prod.fst → k.Agrees c {}
  options : c.options = u.query.filter (·.1 ∉ Key.names)

end Url

/-- All values of the configuration fit into a URL. -/
structure Sayable (c : Config) : Prop where
  user : ':' ∉ c.user.toList ∧ '?' ∉ c.user.toList
  password : ∃ password, c.password = some password ∧ '?' ∉ password.toList
  host : '@' ∉ c.host.toList ∧ '/' ∉ c.host.toList ∧ '?' ∉ c.host.toList
  database : c.database ≠ "" ∧ '@' ∉ c.database.toList ∧ '?' ∉ c.database.toList
  applicationName : ∃ name, c.applicationName = some name ∧ '&' ∉ name.toList
  timeout : ∀ t ∈ c.timeout, t.secs ≠ 0 ∧ t.nanos = 0
  credentialProvider : '&' ∉ c.credentialProvider.toList
  options : ∀ o ∈ c.options,
    o.1 ∉ Key.names ∧ '=' ∉ o.1.toList ∧ '&' ∉ o.1.toList ∧ '&' ∉ o.2.toList

/-- The pairs of a query that set all known keys. -/
def settings (c : Config) : List (String × String) := Key.all.map fun k => (k.name, k.value c)

/-! ## One pair of a query -/

/-- What stands in front of the query. -/
def front (c : Config) : String × UInt16 × String × String × Option String :=
  (c.host, c.port, c.database, c.user, c.password)

namespace Key

variable {c d : Config} {k : Key} {key value : String}

theorem mem_all (k : Key) : k ∈ all := by
  cases k <;> simp [all]

theorem mem_names : key ∈ names ↔ ∃ k : Key, k.name = key := by
  rw [names, List.mem_map]
  exact ⟨fun ⟨k, _, hk⟩ => ⟨k, hk⟩, fun ⟨k, hk⟩ => ⟨k, k.mem_all, hk⟩⟩

theorem name_plain (k : Key) : '=' ∉ k.name.toList ∧ '&' ∉ k.name.toList := by
  cases k <;> decide

theorem name_injective : Function.Injective name := by
  intro k l h
  cases k <;> cases l <;> first | rfl | exact absurd h (by decide)

theorem agrees_copy (c d : Config) (k : Key) : k.Agrees c (k.copy c d) := by
  cases k <;> rfl

/-- What is copied can only bring two configurations closer. -/
theorem Agrees.copy (h : k.Agrees c d) (l : Key) : k.Agrees c (l.copy c d) := by
  cases k <;> cases l <;> first | rfl | exact h

theorem Agrees.withOptions (h : k.Agrees c d) (options : List (String × String)) :
    k.Agrees c { d with options } := by
  cases k <;> exact h

theorem front_copy (c d : Config) (k : Key) : (k.copy c d).front = d.front := by
  cases k <;> rfl

theorem options_copy (c d : Config) (k : Key) : (k.copy c d).options = d.options := by
  cases k <;> rfl

end Key

variable {c d : Config} {k : Key} {key value : String}

/-- A known key sets its field and nothing else. -/
theorem withOption_name (h : k.Spells c value) :
    d.withOption k.name value = .ok (k.copy c d) := by
  cases k with
  | applicationName =>
    have hname : c.applicationName = some value := h
    simp [withOption, Key.name, Key.copy, hname]
  | maxPreparedStatements =>
    have hread := Integer.readUInt64_spelled h
    simp [withOption, Key.name, Key.copy, hread]
  | style =>
    have hread := Placeholder.Style.ofName_spelled h
    simp [withOption, Key.name, Key.copy, hread]
  | autocommit =>
    have hword : value.map Char.toLower ∈ Key.words c.autocommit := h
    cases hvalue : c.autocommit with
    | true | false =>
      rw [hvalue] at hword
      obtain hword | hword | hword : _ = _ ∨ _ = _ ∨ _ = _ := by simpa [Key.words] using hword
      all_goals simp [withOption, Key.name, Key.copy, hword, hvalue]
  | timeout =>
    obtain ⟨secs, hsecs, htimeout⟩ := h
    have hread := Integer.readUInt64_spelled hsecs
    simp [withOption, Key.name, Key.copy, hread, htimeout]
  | protocolVersion =>
    have hread := Integer.readInt32_spelled h
    simp [withOption, Key.name, Key.copy, hread]
  | credentialProvider =>
    have hname : c.credentialProvider = value := h
    simp [withOption, Key.name, Key.copy, hname]

/-- Any other key is an extra option. -/
theorem withOption_other (h : key ∉ Key.names) :
    d.withOption key value = .ok { d with options := d.options ++ [(key, value)] } := by
  unfold withOption
  dsimp only
  split
  case h_8 => rfl
  all_goals exact absurd (by decide) h

/-- What a query that spells values of `c` makes of `d`: its known keys are set, its other pairs are
added to the options, and nothing else changes. -/
structure Sets (c d : Config) (query : List (String × String)) (e : Config) : Prop where
  front : e.front = d.front
  options : e.options = d.options ++ query.filter (·.1 ∉ Key.names)
  keys : ∀ k : Key, k.Agrees c d ∨ k.name ∈ query.map Prod.fst → k.Agrees c e

/-- One pair sets the key that it names, or is added to the options. -/
theorem sets_option (h : ∀ k : Key, k.name = key → k.Spells c value) :
    ∃ e, d.withOption key value = .ok e ∧ Sets c d [(key, value)] e := by
  by_cases hkey : key ∈ Key.names
  · obtain ⟨l, rfl⟩ := Key.mem_names.1 hkey
    refine ⟨l.copy c d, withOption_name (h l rfl), l.front_copy c d, ?_, ?_⟩
    · rw [l.options_copy, List.filter_cons_of_neg (by simpa using hkey), List.filter_nil,
        List.append_nil]
    · rintro k (hagrees | hname)
      · exact hagrees.copy l
      · obtain rfl := Key.name_injective (List.mem_singleton.1 hname)
        exact k.agrees_copy c d
  · refine ⟨_, withOption_other hkey, rfl, ?_, ?_⟩
    · rw [List.filter_cons_of_pos (by simpa using hkey), List.filter_nil]
    · rintro k (hagrees | hname)
      · exact hagrees.withOptions _
      · exact absurd (Key.mem_names.2 ⟨k, List.mem_singleton.1 hname⟩) hkey

/-! ## The whole query -/

theorem toList_pairText (p : String × String) :
    (Url.pairText p).toList = p.1.toList ++ '=' :: p.2.toList := by
  simp [Url.pairText]

theorem withQuery_pairText {p : String × String} (h : '=' ∉ p.1.toList)
    (pairs : List (List Char)) :
    d.withQuery ((Url.pairText p).toList :: pairs) =
      d.withOption p.1 p.2 >>= fun c => c.withQuery pairs := by
  rw [toList_pairText, withQuery_cons (by simp), Text.cutFirst_append h]
  simp

/-- A query is cut into the pairs that it was written from. -/
theorem withQuery_splitAt {query : List (String × String)}
    (h : ∀ p ∈ query, '&' ∉ p.1.toList ∧ '&' ∉ p.2.toList) :
    d.withQuery (Text.splitAt '&' ("&".intercalate (query.map Url.pairText)).toList) =
      d.withQuery (query.map fun p => (Url.pairText p).toList) := by
  have hparts : ∀ part ∈ query.map fun p => (Url.pairText p).toList, '&' ∉ part := by
    rw [List.forall_mem_map]
    intro p hp
    rw [toList_pairText, List.mem_append, List.mem_cons, not_or, not_or]
    exact ⟨(h p hp).1, by decide, (h p hp).2⟩
  rw [String.toList_intercalate, List.map_map]
  cases query with
  | nil => rfl
  | cons p query => exact congrArg d.withQuery (Text.splitAt_intercalate hparts)

namespace Sets

variable {e f : Config} {p : String × String} {query : List (String × String)}

theorem nil : Sets c d [] d where
  front := rfl
  options := (List.append_nil _).symm
  keys _ h := h.resolve_right List.not_mem_nil

theorem cons (first : Sets c d [p] e) (rest : Sets c e query f) : Sets c d (p :: query) f where
  front := rest.front.trans first.front
  options := by
    rw [rest.options, first.options, List.append_assoc, ← List.filter_append,
      List.singleton_append]
  keys k h := by
    -- A key that agrees or is set at once stays so while the rest is read.
    obtain hagrees | hname := h
    · exact rest.keys k (.inl (first.keys k (.inl hagrees)))
    · obtain hname | hname := List.mem_cons.1 hname
      · exact rest.keys k (.inl (first.keys k (.inr (List.mem_singleton.2 hname))))
      · exact rest.keys k (.inr hname)

end Sets

/-- A query is read to its end and, whatever its order, sets what it spells. -/
theorem sets_query {query : List (String × String)} (hkeys : ∀ p ∈ query, '=' ∉ p.1.toList)
    (hknown : ∀ (k : Key) (value : String), (k.name, value) ∈ query → k.Spells c value) :
    ∃ e, d.withQuery (query.map fun p => (Url.pairText p).toList) = .ok e ∧ Sets c d query e := by
  induction query generalizing d with
  | nil => exact ⟨d, rfl, .nil⟩
  | cons p query ih =>
    obtain ⟨hfirst, hothers⟩ := List.forall_mem_cons.1 hkeys
    obtain ⟨e, he, hset⟩ := sets_option (d := d) fun k hk =>
      hknown k p.2 (hk ▸ List.mem_cons_self)
    obtain ⟨f, hf, hsets⟩ := ih (d := e) hothers fun k value h =>
      hknown k value (List.mem_cons_of_mem _ h)
    refine ⟨f, ?_, hset.cons hsets⟩
    rw [List.map_cons, withQuery_pairText hfirst, he]
    exact hf

/-- A configuration is what stands in front of a query and what the query can say. -/
theorem eq_of_agrees (hfront : d.front = c.front) (hkeys : ∀ k : Key, k.Agrees c d)
    (hoptions : d.options = c.options) : d = c := by
  cases c
  cases d
  cases hfront
  cases hoptions
  cases hkeys .applicationName
  cases hkeys .maxPreparedStatements
  cases hkeys .style
  cases hkeys .autocommit
  cases hkeys .timeout
  cases hkeys .protocolVersion
  cases hkeys .credentialProvider
  rfl

/-! ## The parts in front -/

theorem findSome?_schemes {scheme : String} (h : scheme ∈ schemes) (rest : List Char) :
    (schemes.findSome? fun s => Text.stripLead s.toList (scheme.toList ++ rest)) = some rest := by
  simp only [schemes, List.mem_cons, List.not_mem_nil, or_false] at h
  obtain rfl | rfl | rfl := h <;> rfl

/-- Credentials end at the first colon for the user, and further colons belong to the password. -/
theorem withCredentials_append {user password : List Char} (h : ':' ∉ user) :
    c.withCredentials (user ++ ':' :: password) =
      { c with user := String.ofList user, password := some (String.ofList password) } := by
  unfold withCredentials
  split
  case h_1 hempty => exact absurd hempty (by simp)
  case h_2 => rw [Text.cutFirst_append h]

theorem withDatabase_of_ne_nil {text : List Char} (h : text ≠ []) :
    c.withDatabase text = { c with database := String.ofList text } := by
  unfold withDatabase
  split
  · exact absurd rfl h
  · rfl

/-- The port stands behind the last colon, so that a host may hold colons of its own. -/
theorem withHost_append {host port : List Char} {n : UInt16} (h : Integer.Spells n.toNat port)
    (hport : ':' ∉ port) :
    c.withHost (host ++ ':' :: port) = .ok { c with host := String.ofList host, port := n } := by
  unfold withHost
  rw [Text.cutLast_append hport]
  dsimp only
  rw [Integer.readUInt16_spelled h]

/-- A URL is cut into the parts that it was written from: what comes before each cut has no
delimiter of its kind, or at the last at sign what comes after it. -/
theorem ofUrl_parts (u : Url) (hport : ∀ d ∈ ['?', '@', '/', ':'], d ∉ u.port.toList) :
    ofUrl u.text =
      (({ user := u.user, password := some u.password, database := u.database } : Config).withHost
        (u.host.toList ++ ':' :: u.port.toList)) >>= fun c =>
          c.withQuery (u.query.map fun p => (Url.pairText p).toList) := by
  have htext : u.text.toList = u.scheme.toList ++
      (((u.user.toList ++ ':' :: u.password.toList) ++
        '@' :: ((u.host.toList ++ ':' :: u.port.toList) ++ '/' :: u.database.toList)) ++
          '?' :: ("&".intercalate (u.query.map Url.pairText)).toList) := by
    simp [Url.text]
  have hquestion : '?' ∉ (u.user.toList ++ ':' :: u.password.toList) ++
      '@' :: ((u.host.toList ++ ':' :: u.port.toList) ++ '/' :: u.database.toList) := by
    simp [u.user_plain, u.password_plain, u.host_plain, u.database_plain, hport]
  have hat : '@' ∉ (u.host.toList ++ ':' :: u.port.toList) ++ '/' :: u.database.toList := by
    simp [u.host_plain, u.database_plain, hport]
  have hslash : '/' ∉ u.host.toList ++ ':' :: u.port.toList := by
    simp [u.host_plain, hport]
  have hdatabase : u.database.toList ≠ [] := by simpa using u.database_plain.1
  have hquery : ∀ p ∈ u.query, '&' ∉ p.1.toList ∧ '&' ∉ p.2.toList := fun p hp =>
    (u.query_plain p hp).2
  unfold ofUrl
  rw [htext, findSome?_schemes u.scheme_mem]
  simp only [Text.cutFirst_append hquestion, Text.cutLast_append hat, Text.cutFirst_append hslash,
    Option.getD_some, withCredentials_append u.user_plain.1,
    withDatabase_of_ne_nil hdatabase, withQuery_splitAt hquery, String.ofList_toList]

/-- A URL is read as the configuration that it says. -/
theorem Url.Says.ofUrl_text {u : Url} (h : u.Says c) : ofUrl u.text = .ok c := by
  have hmarks : ∀ d ∈ ['?', '@', '/', ':'], d ≠ '+' ∧ d ≠ '-' ∧ d.isDigit = false := by simp
  have hport : ∀ d ∈ ['?', '@', '/', ':'], d ∉ u.port.toList := fun d hd =>
    h.port.notMem (hmarks d hd)
  rw [ofUrl_parts u hport, withHost_append h.port (hport ':' (by decide))]
  obtain ⟨e, he, hsets⟩ := sets_query (c := c)
    (d := { user := u.user, password := some u.password, database := u.database,
            host := String.ofList u.host.toList, port := c.port })
    (fun p hp => (u.query_plain p hp).1) h.known
  refine he.trans (congrArg Except.ok (eq_of_agrees ?_ (fun k => hsets.keys k ?_) ?_))
  · rw [hsets.front, front, front, h.user, h.password, h.host, h.database, String.ofList_toList]
  · by_cases hname : k.name ∈ u.query.map Prod.fst
    · exact .inr hname
    · -- What stands in front of the query has left the defaults of all keys.
      have hdefault := h.missing k hname
      refine .inl ?_
      cases k <;> simpa only [Key.Agrees] using hdefault
  · rw [hsets.options, h.options]
    rfl

/-! ## Configurations that a URL can say -/

theorem mem_settings {p : String × String} :
    p ∈ c.settings ↔ ∃ k : Key, (k.name, k.value c) = p := by
  rw [settings, List.mem_map]
  exact ⟨fun ⟨k, _, hk⟩ => ⟨k, hk⟩, fun ⟨k, hk⟩ => ⟨k, k.mem_all, hk⟩⟩

namespace Sayable

theorem spells (h : c.Sayable) (k : Key) : k.Spells c (k.value c) := by
  cases k with
  | applicationName =>
    obtain ⟨name, hname, -⟩ := h.applicationName
    show c.applicationName = some (c.applicationName.getD "")
    rw [hname]
    rfl
  | maxPreparedStatements => exact Integer.spells_natural _
  | style =>
    show c.style.name.map Char.toLower = c.style.name
    cases c.style <;> decide +kernel
  | autocommit =>
    show (if c.autocommit then "true" else "false").map Char.toLower ∈ Key.words c.autocommit
    cases c.autocommit <;> decide +kernel
  | timeout =>
    refine ⟨c.timeout.elim 0 Duration.secs, Integer.spells_natural _, ?_⟩
    cases htimeout : c.timeout with
    | none => rfl
    | some t =>
      obtain ⟨hsecs, hnanos⟩ := h.timeout t htimeout
      show some t = if t.secs = 0 then none else some ⟨t.secs, 0⟩
      rw [if_neg hsecs, ← hnanos]
  | protocolVersion =>
    show Integer.Spells _ (String.ofList _).toList
    rw [String.toList_ofList]
    exact Integer.spells_text _
  | credentialProvider => rfl

theorem value_plain (h : c.Sayable) (k : Key) : '&' ∉ (k.value c).toList := by
  cases k with
  | applicationName =>
    obtain ⟨name, hname, hplain⟩ := h.applicationName
    show '&' ∉ (c.applicationName.getD "").toList
    rwa [hname]
  | maxPreparedStatements | timeout => exact (Integer.spells_natural _).notMem (by decide)
  | style =>
    show '&' ∉ c.style.name.toList
    cases c.style <;> decide
  | autocommit =>
    show '&' ∉ (if c.autocommit then "true" else "false").toList
    cases c.autocommit <;> decide
  | protocolVersion => exact (h.spells .protocolVersion : Integer.Spells _ _).notMem (by decide)
  | credentialProvider => exact h.credentialProvider

theorem query_plain (h : c.Sayable) :
    ∀ p ∈ c.settings ++ c.options, '=' ∉ p.1.toList ∧ '&' ∉ p.1.toList ∧ '&' ∉ p.2.toList := by
  intro p hp
  obtain hp | hp := List.mem_append.1 hp
  · obtain ⟨k, rfl⟩ := mem_settings.1 hp
    exact ⟨k.name_plain.1, k.name_plain.2, h.value_plain k⟩
  · exact (h.options p hp).2

/-- A sayable configuration is said by a URL of each scheme, with its query in any order that
leaves the extra options in theirs. -/
theorem exists_url (h : c.Sayable) {scheme : String} {query : List (String × String)}
    (hscheme : scheme ∈ schemes) (hperm : query.Perm (c.settings ++ c.options))
    (hoptions : query.filter (·.1 ∉ Key.names) = c.options) :
    ∃ u : Url, u.scheme = scheme ∧ u.query = query ∧ u.Says c := by
  obtain ⟨password, hpassword, hplain⟩ := h.password
  refine ⟨{ scheme, user := c.user, password, host := c.host
            port := String.ofList (Integer.natural c.port.toNat), database := c.database, query
            scheme_mem := hscheme, user_plain := h.user, password_plain := hplain
            host_plain := h.host, database_plain := h.database
            query_plain := fun p hp => h.query_plain p (hperm.mem_iff.1 hp) }, rfl, rfl,
    rfl, hpassword, rfl, Integer.spells_natural _, rfl, ?_, ?_, hoptions.symm⟩
  · intro k value hvalue
    obtain hvalue | hvalue := List.mem_append.1 (hperm.mem_iff.1 hvalue)
    · obtain ⟨l, hl⟩ := mem_settings.1 hvalue
      obtain ⟨hname, rfl⟩ := Prod.mk.inj hl
      obtain rfl := Key.name_injective hname
      exact h.spells l
    · exact absurd (Key.mem_names.2 ⟨k, rfl⟩) (h.options _ hvalue).1
  · intro k hmissing
    have hsetting : (k.name, k.value c) ∈ c.settings := mem_settings.2 ⟨k, rfl⟩
    have hquery := hperm.mem_iff.2 (List.mem_append_left c.options hsetting)
    exact absurd (List.mem_map_of_mem hquery) hmissing

end Sayable

/-- A URL is read as exactly the configuration that it says, whatever delimiters are in its parts,
and however its numbers and words are spelled and its query is ordered. Every configuration whose
values fit is said by a URL of each scheme, with the known keys of the query in any order and the
extra options in theirs. -/
theorem urls_read_back :
    (∀ (u : Url) (c : Config), u.Says c → ofUrl u.text = .ok c) ∧
      ∀ (c : Config) (scheme : String) (query : List (String × String)),
        c.Sayable → scheme ∈ schemes → query.Perm (c.settings ++ c.options) →
          query.filter (·.1 ∉ Key.names) = c.options →
            ∃ u : Url, u.scheme = scheme ∧ u.query = query ∧ u.Says c :=
  ⟨fun _ _ => Url.Says.ofUrl_text, fun _ _ _ h => h.exists_url⟩

/-- Delimiters in every part, an address with colons for a host, and all kinds of spelling. -/
def crowdedUrl : Url where
  scheme := "postgres://"
  user := "a@l/i"
  password := "p@s:s/w"
  host := "[::1]"
  port := "+05439"
  database := "d/b:1"
  query := [("timeout", "030"), ("path", "a=b?c"), ("", "v"), ("client_protocol_version", "-1"),
    ("paramstyle", "QMark"), ("autocommit", "On"), ("max_prepared_statements", "0"),
    ("application_name", "e=t?l")]
  scheme_mem := by decide
  user_plain := by decide
  password_plain := by decide
  host_plain := by decide
  database_plain := by decide
  query_plain := by decide

def crowded : Config where
  host := "[::1]"
  port := 5439
  database := "d/b:1"
  user := "a@l/i"
  password := some "p@s:s/w"
  applicationName := some "e=t?l"
  maxPreparedStatements := 0
  style := .qmark
  autocommit := true
  timeout := some ⟨30, 0⟩
  protocolVersion := -1
  options := [("path", "a=b?c"), ("", "v")]

theorem crowdedUrl_says : crowdedUrl.Says crowded := by
  refine ⟨rfl, rfl, rfl, ?_, rfl, ?_, ?_, by decide⟩
  · show Integer.Spells (5439 : Nat) "+05439".toList
    exact .plus
      (⟨by simp, by simp, by decide⟩ : Integer.Numeral 5439 ['0', '5', '4', '3', '9'])
  · intro k value hvalue
    cases k <;> simp [crowdedUrl, Key.name] at hvalue <;> subst hvalue
    · rfl
    · exact .plain (⟨by simp, by simp, by decide⟩ : Integer.Numeral 0 ['0'])
    · show String.map Char.toLower "QMark" = "qmark"
      decide +kernel
    · show String.map Char.toLower "On" ∈ Key.words true
      decide +kernel
    · have numeral : Integer.Numeral 30 ['0', '3', '0'] := ⟨by simp, by simp, by decide⟩
      exact ⟨30, .plain numeral, rfl⟩
    · have numeral : Integer.Numeral 1 ['1'] := ⟨by simp, by simp, by decide⟩
      exact .minus numeral (by decide)
  · intro k hmissing
    cases k with
    | credentialProvider => rfl
    | _ => simp [crowdedUrl, Key.name] at hmissing

theorem crowded_sayable : crowded.Sayable where
  user := by decide
  password := ⟨_, rfl, by decide⟩
  host := by decide
  database := by decide
  applicationName := ⟨_, rfl, by decide⟩
  timeout := by decide
  credentialProvider := by decide
  options := by decide

theorem urls_read_back_crowded :
    crowdedUrl.text = "postgres://a@l/i:p@s:s/w@[::1]:+05439/d/b:1?timeout=030&path=a=b?c&=v&" ++
        "client_protocol_version=-1&paramstyle=QMark&autocommit=On&max_prepared_statements=0&" ++
          "application_name=e=t?l" ∧
      crowdedUrl.Says crowded ∧ ofUrl crowdedUrl.text = .ok crowded ∧ crowded.Sayable ∧
        ∃ u : Url, u.scheme = "redshift://" ∧ u.query = crowded.options ++ crowded.settings ∧
          u.Says crowded :=
  ⟨by decide +kernel, crowdedUrl_says, urls_read_back.1 _ _ crowdedUrl_says, crowded_sayable,
    urls_read_back.2 _ _ _ crowded_sayable (by decide) List.perm_append_comm (by decide)⟩

end Config

end PgClient
