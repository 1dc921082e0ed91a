/-
The URI of a file is read back as its path.

A URI is made of a few characters that stand for themselves and of escapes.  `unescape?` reads it
without knowing which bytes are escaped: behind a percent sign it takes two hexadecimal digits for
a byte, and it takes the bytes of any other character as they are.  A byte that is written comes
back whatever stands behind it, so the bytes of a path come back one after another, and different
paths have different URIs.

The server only writes URIs, and never reads one of its own.  So `unescape?` belongs to the
statement and not to the server, and it asks for as little as it can: digits may be small or
capital, and a character that the server would have escaped stands for itself.  That the server
writes none of these, but only what any reader of URIs understands, is the other half of the
statement (`Escaped`).
-/
import VServer.Json.Read
import VServer.Proofs.Text.Utf8
import VServer.Uri

namespace VServer

open Json (hexValue?)
open Text (Bytes)

/-! ### What a URI is made of -/

/-- The characters that stand for themselves: letters and digits of ASCII and five marks. -/
def IsUriChar (c : Char) : Prop :=
  ('A' ≤ c ∧ c ≤ 'Z') ∨ ('a' ≤ c ∧ c ≤ 'z') ∨ ('0' ≤ c ∧ c ≤ '9') ∨ c ∈ ['/', '.', '-', '_', '~']

/-- Hexadecimal digits without small letters. -/
def IsCapitalHex (c : Char) : Prop :=
  ('0' ≤ c ∧ c ≤ '9') ∨ ('A' ≤ c ∧ c ≤ 'F')

instance (c : Char) : Decidable (IsCapitalHex c) :=
  inferInstanceAs (Decidable (_ ∨ _))

/-- A text of characters that stand for themselves and of escapes. -/
inductive Escaped : List Char → Prop
  | nil : Escaped []
  | plain {c : Char} {cs : List Char} (hc : IsUriChar c) (hcs : Escaped cs) : Escaped (c :: cs)
  | escape {high low : Char} {cs : List Char} (hhigh : IsCapitalHex high) (hlow : IsCapitalHex low)
      (hcs : Escaped cs) : Escaped ('%' :: high :: low :: cs)

/-- The bytes that a text with escapes stands for; none if an escape lacks its two digits. -/
def unescape? : List Char → Option Bytes
  | [] => some []
  | '%' :: high :: low :: cs =>
    match hexValue? high, hexValue? low with
    | some h, some l => (unescape? cs).map (UInt8.ofNat (h * 16 + l) :: ·)
    | _, _ => none
  | c :: cs => if c = '%' then none else (unescape? cs).map (String.utf8EncodeChar c ++ ·)

theorem unescape?_plain {c : Char} (hc : c ≠ '%') (cs : List Char) :
    unescape? (c :: cs) = (unescape? cs).map (String.utf8EncodeChar c ++ ·) := by
  rw [unescape?, if_neg hc]
  rintro high low rest ⟨⟩
  exact absurd rfl hc

theorem unescape?_escape {high low : Char} {h l : Nat} (hhigh : hexValue? high = some h)
    (hlow : hexValue? low = some l) (cs : List Char) :
    unescape? ('%' :: high :: low :: cs)
      = (unescape? cs).map (UInt8.ofNat (h * 16 + l) :: ·) := by
  rw [unescape?, hhigh, hlow]

/-! ### One byte

There are two cases.  A byte that stands for itself is the code of an ASCII character, whose bytes
are that byte alone.  Any other byte is an escape, and its two digits give the byte again.
-/

theorem hexDigit_spec {n : Nat} (h : n < 16) :
    IsCapitalHex (hexDigit n) ∧ hexValue? (hexDigit n) = some n := by
  have hall : ∀ n : Fin 16, IsCapitalHex (hexDigit n) ∧ hexValue? (hexDigit n) = some n.val := by
    decide
  exact hall ⟨n, h⟩

/-- A byte that stands for itself is a character of its own, and none that starts an escape. -/
theorem isUriChar_of_isPlainByte {b : UInt8} (h : isPlainByte b = true) :
    IsUriChar (Char.ofNat b.toNat) ∧ Char.ofNat b.toNat ≠ '%' ∧
      String.utf8EncodeChar (Char.ofNat b.toNat) = [b] := by
  have hrange : (65 ≤ b.toNat ∧ b.toNat ≤ 90) ∨ (97 ≤ b.toNat ∧ b.toNat ≤ 122) ∨
      (48 ≤ b.toNat ∧ b.toNat ≤ 57) ∨ b.toNat = 47 ∨ b.toNat = 46 ∨ b.toNat = 45 ∨
      b.toNat = 95 ∨ b.toNat = 126 := by
    simpa [isPlainByte, or_assoc] using h
  have hsmall : b.toNat < 0x80 := by omega
  have hnum : (Char.ofNat b.toNat).val.toNat = b.toNat := Text.toNat_ofNat (.inl (by omega))
  have hle : ∀ c d : Char, c ≤ d ↔ c.val.toNat ≤ d.val.toNat := fun c d => UInt32.le_iff_toNat_le
  refine ⟨?_, ?_, (Text.Spells.eq_encodeChar (.one hsmall rfl)).symm⟩
  · rcases hrange with hupper | hlower | hdigit | hmark
    · exact .inl (by rw [hle, hle, hnum]; exact hupper)
    · exact .inr (.inl (by rw [hle, hle, hnum]; exact hlower))
    · exact .inr (.inr (.inl (by rw [hle, hle, hnum]; exact hdigit)))
    · refine .inr (.inr (.inr ?_))
      rcases hmark with hb | hb | hb | hb | hb <;> rw [hb] <;> decide
  · intro hpercent
    have h37 : b.toNat = 37 := by rw [← hnum, hpercent]; rfl
    omega

theorem escaped_escapeByte (b : UInt8) {text : List Char} (h : Escaped text) :
    Escaped (escapeByte b ++ text) := by
  unfold escapeByte
  split
  · rename_i hplain
    exact .plain (isUriChar_of_isPlainByte hplain).1 h
  · have hsize := b.toNat_lt
    exact .escape (hexDigit_spec (by omega)).1 (hexDigit_spec (by omega)).1 h

/-- **A byte comes back in front of what stands behind it.** -/
theorem unescape?_escapeByte (b : UInt8) (text : List Char) :
    unescape? (escapeByte b ++ text) = (unescape? text).map (b :: ·) := by
  unfold escapeByte
  split
  · rename_i hplain
    obtain ⟨-, hpercent, hbytes⟩ := isUriChar_of_isPlainByte hplain
    rw [List.singleton_append, unescape?_plain hpercent, hbytes]
    rfl
  · have hsize := b.toNat_lt
    have hescape := unescape?_escape (hexDigit_spec (n := b.toNat / 16) (by omega)).2
      (hexDigit_spec (n := b.toNat % 16) (by omega)).2 text
    rwa [Nat.div_add_mod', UInt8.ofNat_toNat] at hescape

/-! ### All bytes of a path -/

theorem escaped_escapeBytes (bytes : Bytes) : Escaped (bytes.flatMap escapeByte) := by
  induction bytes with
  | nil => exact .nil
  | cons b bytes ih => exact escaped_escapeByte b ih

theorem unescape?_escapeBytes (bytes : Bytes) :
    unescape? (bytes.flatMap escapeByte) = some bytes := by
  induction bytes with
  | nil => rfl
  | cons b bytes ih =>
      rw [List.flatMap_cons, unescape?_escapeByte, ih]
      rfl

theorem encodeString_injective {s t : String} (h : Text.encodeString s = Text.encodeString t) :
    s = t := by
  have hdecode := Text.decode_encode s.toList
  rw [show Text.encode s.toList = Text.encode t.toList from h, Text.decode_encode] at hdecode
  exact String.toList_inj.mp (Except.ok.inj hdecode).symm

/-! ### Paths -/

theorem fileUri_of_isAbsolute (cwd : String) {path : String} (h : Path.isAbsolute path = true) :
    fileUri cwd path
      = "file://" ++ String.ofList ((Text.encodeString path).flatMap escapeByte) := by
  simp only [fileUri, h, if_true, String.append_empty]

theorem Path.isAbsolute_append {base : String} (h : isAbsolute base = true) (path : String) :
    isAbsolute (base ++ path) = true := by
  have hhead : base.toList.head? = some '/' := by simpa [isAbsolute] using h
  simp [isAbsolute, String.toList_append, List.head?_append, hhead]

theorem Path.isAbsolute_join {base : String} (h : isAbsolute base = true) (path : String) :
    isAbsolute (join base path) = true := by
  have hbase : base.isEmpty = false := by
    rw [Bool.eq_false_iff]
    intro hempty
    rw [String.isEmpty_iff.mp hempty] at h
    cases h
  unfold join
  rw [hbase, Bool.or_false]
  split
  · assumption
  · split
    · exact isAbsolute_append h path
    · rw [String.append_assoc]
      exact isAbsolute_append h _

theorem fileUri_join {cwd : String} (h : Path.isAbsolute cwd = true ∨ cwd = "") {path : String}
    (hpath : Path.isAbsolute path = false) :
    fileUri cwd path = fileUri cwd (Path.join cwd path) := by
  rcases h with habsolute | rfl
  · simp only [fileUri, hpath, Path.isAbsolute_join habsolute, Bool.false_eq_true, if_true,
      if_false]
  · have hjoin : Path.join "" path = path := by simp [Path.join]
    rw [hjoin]

/--
**The URI of a file is read back as the bytes of its path.**

Behind `file://` stand only letters, digits, five marks and escapes, so nothing is left in it that
a reader of URIs takes for something else.  Different absolute paths have different URIs.  A
relative path has the URI of the path that it stands for in the working directory; where the
system cannot tell that directory, it is empty.
-/
theorem fileUri_readable (cwd : String) :
    (∀ path, Path.isAbsolute path = true →
      ∃ text, fileUri cwd path = "file://" ++ String.ofList text ∧ Escaped text ∧
        unescape? text = some (Text.encodeString path)) ∧
    (∀ path path', Path.isAbsolute path = true → Path.isAbsolute path' = true →
      fileUri cwd path = fileUri cwd path' → path = path') ∧
    (Path.isAbsolute cwd = true ∨ cwd = "" →
      ∀ path, Path.isAbsolute path = false →
        fileUri cwd path = fileUri cwd (Path.join cwd path)) := by
  refine ⟨?_, ?_, fun hcwd path => fileUri_join hcwd⟩
  · intro path habsolute
    exact ⟨_, fileUri_of_isAbsolute cwd habsolute, escaped_escapeBytes _, unescape?_escapeBytes _⟩
  · intro path path' habsolute habsolute' heq
    rw [fileUri_of_isAbsolute cwd habsolute, fileUri_of_isAbsolute cwd habsolute',
      String.append_right_inj, String.ofList_inj] at heq
    have hbytes := congrArg unescape? heq
    rw [unescape?_escapeBytes, unescape?_escapeBytes] at hbytes
    exact encodeString_injective (Option.some.inj hbytes)

/-- A blank, a letter of two bytes and a percent sign are escaped, also the one that looks like an
escape already; a relative path is read back from the working directory. -/
theorem fileUri_readable_escapes :
    (∃ text, fileUri "/home" "/a é%20.v" = "file://" ++ String.ofList text ∧ Escaped text ∧
      unescape? text = some (Text.encodeString "/a é%20.v")) ∧
    fileUri "/home" "/a é%20.v" = "file:///a%20%C3%A9%2520.v" ∧
    fileUri "/home" "/a é%20.v" ≠ fileUri "/home" "/a é .v" ∧
    fileUri "/home" "b.v" = fileUri "/home" "/home/b.v" := by
  obtain ⟨hread, hinjective, hrelative⟩ := fileUri_readable "/home"
  have hjoin : Path.join "/home" "b.v" = "/home/b.v" := by decide +kernel
  refine ⟨hread _ (by decide +kernel), by decide +kernel, ?_, ?_⟩
  · intro heq
    exact absurd (hinjective _ _ (by decide +kernel) (by decide +kernel) heq) (by decide)
  · rw [← hjoin]
    exact hrelative (.inl (by decide +kernel)) "b.v" (by decide +kernel)

end VServer
