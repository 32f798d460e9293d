import Huginn.Influx.WriteUrl

/-!
# The query of a write request says what was configured

Whatever characters the names of the organisation and the bucket are made of, the query is read
back as the three parameters with their UTF-8, and nothing else (`writeUrl_reads_back`). So no name
can add a parameter, end one early or put another in its place.
-/

namespace Huginn.Influx

open Percent (IsUpperHex PlainOk readQuery writePair writeQuery)

/-- The unreserved characters of a URL. -/
def Unreserved (c : Char) : Prop := c.isAlphanum = true ∨ c = '-' ∨ c = '_' ∨ c = '.' ∨ c = '~'

instance : DecidablePred Unreserved := fun c =>
  inferInstanceAs (Decidable (c.isAlphanum = true ∨ c = '-' ∨ c = '_' ∨ c = '.' ∨ c = '~'))

/-! ### The bytes that stay as they are -/

theorem unreserved_ofNat : ∀ {n : ℕ}, n < 256 → isUnreserved (UInt8.ofNat n) = true →
    n < 0x80 ∧ Unreserved (Char.ofNat n) := by decide +kernel

theorem unreserved_of_isUnreserved {b : UInt8} (h : isUnreserved b = true) :
    b.toNat < 0x80 ∧ Unreserved (Char.ofNat b.toNat) :=
  unreserved_ofNat b.toNat_lt (by rwa [UInt8.ofNat_toNat])

theorem ofNat_toNat_ne {c : Char} (hc : ¬ Unreserved c) (b : UInt8) (h : isUnreserved b = true) :
    Char.ofNat b.toNat ≠ c := by
  intro heq
  have hchar := (unreserved_of_isUnreserved h).2
  rw [heq] at hchar
  exact hc hchar

/-- They mean nothing in a query. -/
theorem plainOk_isUnreserved : PlainOk isUnreserved where
  ascii _ h := (unreserved_of_isUnreserved h).1
  no_percent := ofNat_toNat_ne (by decide)
  no_separator b h := ⟨ofNat_toNat_ne (by decide) b h, ofNat_toNat_ne (by decide) b h⟩

/-! ### `urlencode` -/

@[simp]
theorem toList_urlencode (s : String) :
    (urlencode s).toList = Percent.encode isUnreserved (asBytes s) := String.toList_ofList

theorem urlencode_injective : Function.Injective urlencode := by
  intro s t h
  have hlist := congrArg String.toList h
  rw [toList_urlencode, toList_urlencode] at hlist
  exact asBytes_injective (Percent.encode_injective plainOk_isUnreserved hlist)

/-- What comes out: unreserved characters and triples of `%` and two upper-case digits. -/
theorem urlencode_eq_flatten (s : String) : ∃ pieces : List (List Char),
    (urlencode s).toList = pieces.flatten ∧ ∀ p ∈ pieces,
      (∃ c, Unreserved c ∧ p = [c]) ∨
        ∃ hi lo, IsUpperHex hi ∧ IsUpperHex lo ∧ p = ['%', hi, lo] := by
  obtain ⟨pieces, heq, hpieces⟩ := Percent.encode_eq_flatten isUnreserved (asBytes s)
  refine ⟨pieces, (toList_urlencode s).trans heq, fun p hp => ?_⟩
  rcases hpieces p hp with ⟨b, hb, rfl⟩ | htriple
  · exact .inl ⟨_, (unreserved_of_isUnreserved hb).2, rfl⟩
  · exact .inr htriple

/-! ### The query -/

/-- The parameters of a write request. -/
def writeParams (cfg : InfluxConfig) : List (List UInt8 × List UInt8) :=
  [(asBytes "org", asBytes cfg.org), (asBytes "bucket", asBytes cfg.bucket),
    (asBytes "precision", asBytes "ms")]

/-- The names of the parameters and the precision stay as they are. -/
theorem writeQuery_writeParams (cfg : InfluxConfig) :
    writeQuery isUnreserved (writeParams cfg) =
      "org=".toList ++ (urlencode cfg.org).toList ++ "&bucket=".toList ++
        (urlencode cfg.bucket).toList ++ "&precision=ms".toList := by
  have horg : Percent.encode isUnreserved (asBytes "org") = "org".toList := by decide
  have hbucket : Percent.encode isUnreserved (asBytes "bucket") = "bucket".toList := by decide
  have hprecision : Percent.encode isUnreserved (asBytes "precision") = "precision".toList := by
    decide
  have hms : Percent.encode isUnreserved (asBytes "ms") = "ms".toList := by decide
  simp [writeQuery, writeParams, writePair, horg, hbucket, hprecision, hms, List.intercalate]

theorem toList_writeUrl (cfg : InfluxConfig) :
    (writeUrl cfg).toList = (trimEndMatches cfg.url '/' ++ "/api/v2/write?").toList ++
      writeQuery isUnreserved (writeParams cfg) := by
  rw [writeQuery_writeParams]
  simp [writeUrl]

/-- The query ends where the URL does, and begins at its last question mark. -/
theorem question_not_mem_writeQuery (cfg : InfluxConfig) :
    '?' ∉ writeQuery isUnreserved (writeParams cfg) := by
  have hname : ∀ s, '?' ∉ Percent.encode isUnreserved (asBytes s) := fun s =>
    Percent.not_mem_encode (by decide) (by decide) (ofNat_toNat_ne (by decide)) _
  rw [writeQuery_writeParams]
  simp [hname]

/-- **The query of a write request has the three parameters that were configured**, in their order
and byte by byte, whatever the names are made of. Only unreserved characters and triples are written
for a name, and different names are written differently. -/
theorem writeUrl_reads_back (cfg : InfluxConfig) :
    (∃ query, '?' ∉ query ∧
      (writeUrl cfg).toList =
        (trimEndMatches cfg.url '/' ++ "/api/v2/write?").toList ++ query ∧
      readQuery query = some [(asBytes "org", asBytes cfg.org),
        (asBytes "bucket", asBytes cfg.bucket), (asBytes "precision", asBytes "ms")]) ∧
    (∀ s, ∃ pieces : List (List Char), (urlencode s).toList = pieces.flatten ∧ ∀ p ∈ pieces,
      (∃ c, Unreserved c ∧ p = [c]) ∨
        ∃ hi lo, IsUpperHex hi ∧ IsUpperHex lo ∧ p = ['%', hi, lo]) ∧
    Function.Injective urlencode := by
  have hread : readQuery (writeQuery isUnreserved (writeParams cfg)) = some (writeParams cfg) :=
    Percent.readQuery_writeQuery plainOk_isUnreserved (List.cons_ne_nil _ _)
  refine ⟨⟨_, question_not_mem_writeQuery cfg, toList_writeUrl cfg, hread⟩, ?_, ?_⟩
  · exact urlencode_eq_flatten
  · exact urlencode_injective

end Huginn.Influx
