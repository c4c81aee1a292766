/-
  PgClient.Proofs.Config.Texts

  The texts of a configuration that go into the startup packet. A connection URL
  without the character zero makes a configuration whose texts have none either,
  but a pair of its query may begin with its equals sign, which makes an option
  with an empty key.
-/
import PgClient.Config.Url
import PgClient.Proofs.Message.Layout
import PgClient.Proofs.Steps
import PgClient.Text.Integer.Lemmas

namespace PgClient

open Steps

/-! ## Texts of the client -/

theorem Wire.isText_ofList {cs : List Char} : Wire.IsText (String.ofList cs) ↔ '\x00' ∉ cs := by
  rw [Wire.IsText, String.toList_ofList]

theorem Integer.isText_text (n : Int) : Wire.IsText (String.ofList (text n)) :=
  Wire.isText_ofList.2 ((spells_text n).notMem (by decide))

namespace Config

/-- All that a caller has put into the startup packet is text. -/
structure Textual (c : Config) : Prop where
  user : Wire.IsText c.user
  database : Wire.IsText c.database
  applicationName : ∀ name ∈ c.applicationName, Wire.IsText name
  options : ∀ o ∈ c.options, Wire.IsText o.1 ∧ Wire.IsText o.2

/-- And no key of it is the empty one, which ends the packet. -/
structure Fits (c : Config) : Prop extends Textual c where
  keys : ∀ o ∈ c.options, o.1 ≠ ""

theorem fits_iff (c : Config) :
    (∀ p ∈ c.startupParams, p.1 ≠ "" ∧ Wire.IsText p.1 ∧ Wire.IsText p.2) ↔ c.Fits := by
  -- The keys of the client are sound, so that only the values matter.
  have hown (key : String) (hkey : key ≠ "" ∧ Wire.IsText key) (value : String) :
      (key ≠ "" ∧ Wire.IsText key ∧ Wire.IsText value) ↔ Wire.IsText value :=
    ⟨fun h => h.2.2, fun h => ⟨hkey.1, hkey.2, h⟩⟩
  have hnames : (∀ p ∈ (c.applicationName.map fun name => ("application_name", name)).toList,
      p.1 ≠ "" ∧ Wire.IsText p.1 ∧ Wire.IsText p.2) ↔
        ∀ name ∈ c.applicationName, Wire.IsText name := by
    cases c.applicationName with
    | none => exact ⟨fun _ _ => nofun, fun _ _ => nofun⟩
    | some name =>
      simp only [Option.map_some, Option.toList_some, List.forall_mem_singleton,
        Option.mem_some_iff, forall_eq', hown "application_name" (by decide)]
  rw [startupParams, List.forall_mem_append, List.forall_mem_append, List.forall_mem_cons,
    List.forall_mem_singleton, List.forall_mem_cons, hnames]
  simp only [hown "user" (by decide), hown "database" (by decide),
    hown "client_protocol_version" (by decide)]
  constructor
  · rintro ⟨⟨⟨huser, hdatabase⟩, hname⟩, -, hoptions⟩
    exact ⟨⟨huser, hdatabase, hname, fun o ho => (hoptions o ho).2⟩, fun o ho => (hoptions o ho).1⟩
  · rintro ⟨⟨huser, hdatabase, hname, hoptions⟩, hkeys⟩
    exact ⟨⟨⟨huser, hdatabase⟩, hname⟩, Integer.isText_text _,
      fun o ho => ⟨hkeys o ho, hoptions o ho⟩⟩

/-! ## Texts of a URL -/

theorem withQuery_cons {c : Config} {pair : List Char} (h : pair ≠ []) (pairs : List (List Char)) :
    c.withQuery (pair :: pairs) =
      let parts := (Text.cutFirst '=' pair).getD (pair, [])
      c.withOption (String.ofList parts.1) (String.ofList parts.2) >>= fun c =>
        c.withQuery pairs := by
  cases pair with
  | nil => exact absurd rfl h
  | cons first others => rfl

namespace Textual

variable {c d : Config} {text : List Char}

theorem fits_iff (h : c.Textual) : c.Fits ↔ ∀ o ∈ c.options, o.1 ≠ "" :=
  ⟨fun hfits => hfits.keys, fun hkeys => ⟨h, hkeys⟩⟩

theorem default : ({} : Config).Textual := by
  refine ⟨by decide, by decide, ?_, fun _ => nofun⟩
  rintro _ ⟨⟩
  decide

theorem withOption {key value : String} (h : c.Textual) (hkey : Wire.IsText key)
    (hvalue : Wire.IsText value) (hd : c.withOption key value = .ok d) : d.Textual := by
  unfold Config.withOption at hd
  dsimp only at hd
  split at hd
  case h_1 =>
    cases hd
    refine ⟨h.user, h.database, ?_, h.options⟩
    rintro _ ⟨⟩
    exact hvalue
  case h_8 =>
    cases hd
    refine ⟨h.user, h.database, h.applicationName, ?_⟩
    exact List.forall_mem_append.2 ⟨h.options, List.forall_mem_singleton.2 ⟨hkey, hvalue⟩⟩
  -- No other key makes a difference to the startup packet but to its version.
  all_goals
    repeat' split at hd
    all_goals cases hd
    all_goals exact ⟨h.user, h.database, h.applicationName, h.options⟩

theorem withQuery {pairs : List (List Char)} (h : c.Textual)
    (hpairs : ∀ pair ∈ pairs, '\x00' ∉ pair) (hd : c.withQuery pairs = .ok d) : d.Textual := by
  induction pairs generalizing c with
  | nil =>
    cases hd
    exact h
  | cons pair pairs ih =>
    obtain ⟨hpair, hothers⟩ := List.forall_mem_cons.1 hpairs
    by_cases hempty : pair = []
    · subst hempty
      exact ih h hothers hd
    · rw [withQuery_cons hempty] at hd
      obtain ⟨c', hc', hd⟩ := bind_eq_ok_iff.1 hd
      have hparts := Text.notMem_cutFirst (d := '=') hpair
      exact ih (h.withOption (Wire.isText_ofList.2 hparts.1) (Wire.isText_ofList.2 hparts.2) hc')
        hothers hd

theorem withCredentials (h : c.Textual) (htext : '\x00' ∉ text) :
    (c.withCredentials text).Textual := by
  unfold Config.withCredentials
  split
  · exact h
  · split
    · rename_i user password hcut
      rw [Text.eq_of_cutFirst hcut, List.mem_append, not_or] at htext
      exact ⟨Wire.isText_ofList.2 htext.1, h.database, h.applicationName, h.options⟩
    · exact ⟨Wire.isText_ofList.2 htext, h.database, h.applicationName, h.options⟩

theorem withDatabase (h : c.Textual) (htext : '\x00' ∉ text) : (c.withDatabase text).Textual := by
  unfold Config.withDatabase
  split
  · exact h
  · exact ⟨h.user, Wire.isText_ofList.2 htext, h.applicationName, h.options⟩

theorem withHost (h : c.Textual) (hd : c.withHost text = .ok d) : d.Textual := by
  unfold Config.withHost at hd
  repeat' split at hd
  all_goals cases hd
  all_goals exact ⟨h.user, h.database, h.applicationName, h.options⟩

end Textual

/-- A URL without the character zero leaves only its keys to look at. -/
theorem fits_ofUrl_iff {url : String} {c : Config} (h : ofUrl url = .ok c)
    (hurl : Wire.IsText url) : c.Fits ↔ ∀ o ∈ c.options, o.1 ≠ "" := by
  refine Textual.fits_iff ?_
  unfold ofUrl at h
  cases hscheme : schemes.findSome? fun scheme =>
      Text.stripLead scheme.toList url.toList with
  | none =>
    rw [hscheme] at h
    cases h
  | some rest =>
    rw [hscheme] at h
    obtain ⟨scheme, -, hrest⟩ := List.exists_of_findSome?_eq_some hscheme
    have htext : '\x00' ∉ rest := fun hmem => hurl <| by
      rw [Text.eq_of_stripLead hrest]
      exact List.mem_append_right _ hmem
    have hfront := Text.notMem_cutFirst (d := '?') htext
    have hplace := Text.notMem_cutLast (d := '@') hfront.1
    have hdatabase := Text.notMem_cutFirst (d := '/') hplace.2
    obtain ⟨c', hc', h⟩ := bind_eq_ok_iff.1 h
    have hc := ((Textual.default.withCredentials hplace.1).withDatabase hdatabase.2).withHost hc'
    exact hc.withQuery (fun pair hpair hmem =>
      hfront.2 (Text.subset_of_mem_splitAt hpair hmem)) h

end Config

end PgClient
