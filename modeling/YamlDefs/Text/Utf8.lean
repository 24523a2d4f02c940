/-!
# Texts from bytes

* `decode?`: the text whose encoding bytes are, if they are one; `decode?_eq_some_iff`.
* `decodeLines`: the text of bytes up to the first line that encodes nothing.
-/

namespace YamlDefs.Text

/-- The text that bytes encode, if they encode one. -/
def decode? (bytes : ByteArray) : Option String := String.fromUTF8? bytes

/-- The bytes that encode a text. -/
def encode (text : String) : ByteArray := text.toUTF8

/-- Bytes encode one text at most. -/
theorem decode?_eq_some_iff {bytes : ByteArray} {text : String} :
    decode? bytes = some text ↔ bytes = encode text := by
  constructor
  · intro h
    unfold decode? String.fromUTF8? at h
    split at h
    · cases h
      rfl
    · cases h
  · rintro rfl
    exact dif_pos text.isValidUTF8

/-- The bytes of the first line, with its line feed, and those after it. -/
def splitLine (bytes : List UInt8) : List UInt8 × List UInt8 :=
  let line := bytes.takeWhile (· ≠ 0x0A)
  (line ++ (bytes.drop line.length).take 1, bytes.drop (line.length + 1))

/-- The text of the lines before the first that encodes nothing; there are at most as many lines as
the last argument says. -/
def decodeLines (bytes : List UInt8) : Nat → String
  | 0 => ""
  | fuel + 1 =>
    let (line, rest) := splitLine bytes
    match String.fromUTF8? ⟨line.toArray⟩ with
    | some text => if rest.isEmpty then text else text ++ decodeLines rest fuel
    | none => ""

/-- Bytes without the mark of their encoding at the head. -/
def withoutMark (bytes : List UInt8) : List UInt8 :=
  match bytes with
  | 0xEF :: 0xBB :: 0xBF :: rest => rest
  | _ => bytes

end YamlDefs.Text
