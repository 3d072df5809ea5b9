import ServiceHost.Numeral
/-!
Bytes and the texts they encode.
-/

namespace ServiceHost.Text

/-- The bytes written as pairs of hexadecimal digits. -/
def ofHex : List Char → List UInt8
  | a :: b :: rest =>
    match Numeral.hexDigit? a, Numeral.hexDigit? b with
    | some x, some y => UInt8.ofNat (x * 16 + y) :: ofHex rest
    | _, _ => ofHex rest
  | _ => []

/-- The text that bytes encode, if they are well-formed UTF-8. -/
def decodeUtf8 (bytes : List UInt8) : Option (List Char) :=
  (String.fromUTF8? (ByteArray.mk bytes.toArray)).map String.toList

end ServiceHost.Text
