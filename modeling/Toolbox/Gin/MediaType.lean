import Toolbox.Gin.Negotiate

/-
The media types of package `api`, `application/vnd.<vendor>.<app>.<object>[.v<version>]+<format>`,
and how `parseAcceptedType` reads them back: a media type built from names of letters, digits
and `_-+.*` is accepted as itself, with quality 1.
-/

namespace Toolbox.Gin

open Strings Strconv Unicode Utf8

/-- `VersionedObject`. -/
def versionedObject (vendor app object format : Bytes) (version : UInt64) : Bytes :=
  lit "application/vnd." ++ vendor ++ lit "." ++ app ++ lit "." ++ object ++ lit ".v" ++
    itoa version.toNat ++ lit "+" ++ format

/-- `VersionedJSONObject`. -/
def versionedJSONObject (vendor app object : Bytes) (version : UInt64) : Bytes :=
  versionedObject vendor app object (lit "json") version

/-- `UnversionedObject`. -/
def unversionedObject (vendor app object format : Bytes) : Bytes :=
  lit "application/vnd." ++ vendor ++ lit "." ++ app ++ lit "." ++ object ++ lit "+" ++ format

/-- `UnversionedJSONObject`. -/
def unversionedJSONObject (vendor app object : Bytes) : Bytes :=
  unversionedObject vendor app object (lit "json")

/-- The class `[-+.*\w]` of a media type's subtype in `parseAcceptedType`'s pattern. -/
def isSubtypeChar (b : UInt8) : Bool :=
  isWord b || b == 45 || b == 43 || b == 46 || b == 42

/-! ### Bytes of the pattern's classes -/

/-- A byte of the subtype class is ASCII and not a space. -/
theorem isSubtypeChar_ascii {b : UInt8} (h : isSubtypeChar b) :
    b < 0x80 ∧ isSpace b.toNat = false := by
  have hb : b.toNat < 256 := b.toNat_lt_size
  simp only [isSubtypeChar, isWord, Bool.or_eq_true, Bool.and_eq_true, decide_eq_true_eq,
    beq_iff_eq, UInt8.eq_iff_toNat, UInt8.le_iff_toNat, UInt8.lt_iff_toNat] at h ⊢
  simp only [UInt8.toNat, UInt8.toBitVec_ofNat, BitVec.toNat_ofNat] at h ⊢
  refine ⟨by omega, ?_⟩
  rw [isSpace, if_pos (by omega)]
  simp only [Bool.or_eq_false_iff, decide_eq_false_iff_not]
  omega

/-! ### `strings.TrimSpace` of a string with ASCII ends -/

theorem trimLeftSpace_cons {b : UInt8} (rest : Bytes) (hb : b < 0x80)
    (hs : isSpace b.toNat = false) : trimLeftSpace (b :: rest) = b :: rest := by
  simp [trimLeftSpace, trimLeftSpace.go, decodeRune, hb, hs]

theorem trimRightSpace_of_getLast {s : Bytes} {last : UInt8} (h : s.getLast? = some last)
    (hb : last < 0x80) (hs : isSpace last.toNat = false) : trimRightSpace s = s := by
  obtain ⟨init, rfl⟩ : ∃ init, s = init ++ [last] := ⟨s.dropLast, (List.dropLast_append_getLast?
    _ h).symm⟩
  have hlast : decodeLastRune (init ++ [last]) = (last.toNat, 1) := by
    simp [decodeLastRune, hb]
  have htake : (init ++ [last]).take (init.length + 1) = init ++ [last] :=
    List.take_of_length_le (by simp)
  have hidx : lastIndexNonSpace (init ++ [last]) = some init.length := by
    simp [lastIndexNonSpace, lastIndexNonSpace.go, htake, hlast, hs]
  simp [trimRightSpace, hidx, UInt8.not_le.2 hb, htake]

/-- A string whose first and last bytes are ASCII and not spaces is its own `TrimSpace`. -/
theorem trimSpace_of_ends {b last : UInt8} {rest : Bytes} (hb : b < 0x80)
    (hbs : isSpace b.toNat = false) (hl : (b :: rest).getLast? = some last) (hlb : last < 0x80)
    (hls : isSpace last.toNat = false) : trimSpace (b :: rest) = b :: rest := by
  rw [trimSpace, trimLeftSpace_cons rest hb hbs, trimRightSpace_of_getLast hl hlb hls]

/-! ### Media types read back -/

/-- `application/<sub>`, for a subtype of the class, matches the pattern whole, without a
quality. -/
theorem matchAcceptedType_application {sub : Bytes} (hne : sub ≠ [])
    (hsub : ∀ b ∈ sub, isSubtypeChar b) :
    matchAcceptedType (lit "application/" ++ sub) = some (lit "application/" ++ sub, []) := by
  have hsub' : ∀ b ∈ sub, (isWord b || b == 45 || b == 43 || b == 46 || b == 42) = true := hsub
  have hty : ∀ b ∈ lit "application", (isWord b || b == 42) = true := by decide
  rw [show lit "application/" ++ sub = lit "application" ++ 47 :: sub from rfl, matchAcceptedType,
    List.span_eq_take_drop, List.takeWhile_append_of_pos hty, List.dropWhile_append_of_pos hty,
    List.takeWhile_cons_of_neg (by decide), List.dropWhile_cons_of_neg (by decide)]
  simp only [List.append_nil, List.span_eq_take_drop, List.takeWhile_eq_self_iff.2 hsub',
    List.dropWhile_eq_nil_iff.2 hsub', hne]
  rfl

theorem trimSpace_application {sub : Bytes} (hne : sub ≠ [])
    (hsub : ∀ b ∈ sub, isSubtypeChar b) :
    trimSpace (lit "application/" ++ sub) = lit "application/" ++ sub := by
  obtain ⟨last, hlast⟩ := List.getLast?_isSome.2 hne |> Option.isSome_iff_exists.1
  have hl := isSubtypeChar_ascii (hsub last (List.mem_of_getLast?_eq_some hlast))
  exact trimSpace_of_ends (b := 97) (by decide) (by decide)
    ((List.getLast?_append_of_ne_nil (lit "application/") hne).trans hlast) hl.1 hl.2

/-- `parseAcceptedType` reads `application/<sub>`, for a subtype of the class, back as itself
with quality 1. -/
theorem parseAcceptedType_application {sub : Bytes} (hne : sub ≠ [])
    (hsub : ∀ b ∈ sub, isSubtypeChar b) :
    parseAcceptedType (lit "application/" ++ sub) = .ok ⟨lit "application/" ++ sub, float32One⟩ := by
  simp only [parseAcceptedType, trimSpace_application hne hsub,
    matchAcceptedType_application hne hsub, if_true]

/-- An `Accept` header that is `application/<sub>` alone asks for that type alone. -/
theorem acceptedTypes_application {sub : Bytes} (hne : sub ≠ [])
    (hsub : ∀ b ∈ sub, isSubtypeChar b) :
    acceptedTypes (lit "application/" ++ sub) = [⟨lit "application/" ++ sub, float32One⟩] := by
  have hcomma : ∀ b ∈ lit "application/" ++ sub, ¬ (b == 44) = true := by
    simp only [List.mem_append, beq_iff_eq]
    rintro b (hb | hb) rfl
    · exact absurd hb (by decide)
    · exact absurd (hsub 44 hb) (by decide)
  simp only [acceptedTypes, List.splitOn, List.splitOnP_eq_single _ _ hcomma,
    trimSpace_application hne hsub, parseAcceptedType_application hne hsub, List.filterMap_cons,
    List.filterMap_nil]

/-- A request accepting `application/<sub>` alone is answered with the type the server maps it to,
whenever it maps it. -/
theorem negotiateResponseType_application {sub : Bytes} (hne : sub ≠ [])
    (hsub : ∀ b ∈ sub, isSubtypeChar b) (sort : QualitySort) {c : Context}
    {supportedTypes : GoMap Bytes} {answer : Bytes}
    (hacc : c.getHeader (lit "Accept") = lit "application/" ++ sub)
    (hsup : supportedTypes.lookup (lit "application/" ++ sub) = some answer) :
    negotiateResponseType sort c supportedTypes = .ok answer := by
  simp only [negotiateResponseType, hacc, acceptedTypes_application hne hsub,
    QualitySort.sort_singleton, firstSupported, hsup]

/-- The decimal digits `%d` writes are of the class. -/
theorem isSubtypeChar_of_mem_itoa {b : UInt8} {i : Nat} (h : b ∈ itoa i) : isSubtypeChar b := by
  have hd := digit_of_mem_itoa h
  simp only [isSubtypeChar, isWord, Bool.or_eq_true, Bool.and_eq_true, decide_eq_true_eq,
    UInt8.le_iff_toNat]
  simp only [UInt8.toNat, UInt8.toBitVec_ofNat, BitVec.toNat_ofNat] at hd ⊢
  omega

/-- The media types the builders write are `application/` and a subtype of names joined by the
class's own bytes. -/
theorem objects_application {vendor app object format : Bytes} (version : UInt64)
    (hnames : ∀ b ∈ vendor ++ app ++ object ++ format, isSubtypeChar b) :
    ∀ m ∈ [versionedObject vendor app object format version,
        unversionedObject vendor app object format],
      ∃ sub, m = lit "application/" ++ sub ∧ sub ≠ [] ∧ ∀ b ∈ sub, isSubtypeChar b := by
  simp only [List.forall_mem_append] at hnames
  obtain ⟨⟨⟨hv, ha⟩, ho⟩, hf⟩ := hnames
  simp only [List.mem_cons, List.mem_singleton, List.not_mem_nil, or_false, forall_eq_or_imp,
    forall_eq]
  refine ⟨⟨lit "vnd." ++ vendor ++ lit "." ++ app ++ lit "." ++ object ++ lit ".v" ++
      itoa version.toNat ++ lit "+" ++ format,
      by simp only [versionedObject, List.append_assoc]; rfl,
      nofun, ?_⟩, ⟨lit "vnd." ++ vendor ++ lit "." ++ app ++ lit "." ++ object ++ lit "+" ++
      format, by simp only [unversionedObject, List.append_assoc]; rfl, nofun, ?_⟩⟩
  · simp only [List.forall_mem_append]
    exact ⟨⟨⟨⟨⟨⟨⟨⟨⟨by decide, hv⟩, by decide⟩, ha⟩, by decide⟩, ho⟩, by decide⟩,
      fun _ => isSubtypeChar_of_mem_itoa⟩, by decide⟩, hf⟩
  · simp only [List.forall_mem_append]
    exact ⟨⟨⟨⟨⟨⟨⟨by decide, hv⟩, by decide⟩, ha⟩, by decide⟩, ho⟩, by decide⟩, hf⟩

/-- Every media type `VersionedObject` or `UnversionedObject` builds from names of letters, digits
and `_-+.*` is read back by `parseAcceptedType` as itself with quality 1, and a request accepting
it alone is answered with the type the server maps it to. -/
theorem negotiate_objects {vendor app object format : Bytes} (version : UInt64)
    (hnames : ∀ b ∈ vendor ++ app ++ object ++ format, isSubtypeChar b) :
    ∀ m ∈ [versionedObject vendor app object format version,
        unversionedObject vendor app object format],
      parseAcceptedType m = .ok ⟨m, float32One⟩ ∧
      ∀ (sort : QualitySort) (c : Context) (supportedTypes : GoMap Bytes) (answer : Bytes),
        c.getHeader (lit "Accept") = m → supportedTypes.lookup m = some answer →
        negotiateResponseType sort c supportedTypes = .ok answer := by
  intro m hm
  obtain ⟨sub, rfl, hne, hsub⟩ := objects_application version hnames m hm
  exact ⟨parseAcceptedType_application hne hsub,
    fun sort _ _ _ hacc hsup => negotiateResponseType_application hne hsub sort hacc hsup⟩

/-- The media types of a versioned and an unversioned JSON state object. -/
theorem negotiate_objects_state :
    (∀ b ∈ lit "sophtrust" ++ lit "toolbox" ++ lit "state" ++ lit "json", isSubtypeChar b) ∧
      ∀ m ∈ [versionedJSONObject (lit "sophtrust") (lit "toolbox") (lit "state") 1,
          unversionedJSONObject (lit "sophtrust") (lit "toolbox") (lit "state")],
        parseAcceptedType m = .ok ⟨m, float32One⟩ ∧
        ∀ (sort : QualitySort) (c : Context) (supportedTypes : GoMap Bytes) (answer : Bytes),
          c.getHeader (lit "Accept") = m → supportedTypes.lookup m = some answer →
          negotiateResponseType sort c supportedTypes = .ok answer :=
  ⟨by decide, negotiate_objects 1 (by decide)⟩

end Toolbox.Gin
