import Philo.Domain.LlmError

/-! HTTP header names and values as the `http` crate holds them. -/

namespace Philo

open Result

namespace Text

def isVisibleAscii (character : Char) : Bool :=
  (32 ≤ character.toNat && character.toNat < 127) || character.toNat == 9

end Text

/-- A token in lower case: `HeaderName` folds the case when it is parsed. -/
def isHeaderName (text : String) : Bool :=
  !text.isEmpty && text.toList.all fun character =>
    character.isLower || character.isDigit ||
      "!#$%&'*+-.^_`|~".toList.contains character

structure HeaderName where
  value : String
  valid : isHeaderName value = true
  deriving DecidableEq

namespace HeaderName

def authorization : HeaderName := ⟨"authorization", by decide⟩
def proxyAuthorization : HeaderName := ⟨"proxy-authorization", by decide⟩
def contentType : HeaderName := ⟨"content-type", by decide⟩
def userAgent : HeaderName := ⟨"user-agent", by decide⟩
def idempotencyKey : HeaderName := ⟨"idempotency-key", by decide⟩

end HeaderName

def isHeaderByte (character : Char) : Bool :=
  (32 ≤ character.toNat && character.toNat < 256 && character.toNat != 127) ||
    character.toNat == 9

/-- A header value. Its bytes are kept as the characters of the same code. -/
structure HeaderValue where
  text : String
  valid : text.toList.all isHeaderByte = true
  deriving DecidableEq

namespace HeaderValue

theorem isHeaderByte_of_isVisibleAscii {character : Char}
    (visible : Text.isVisibleAscii character = true) : isHeaderByte character = true := by
  simp only [Text.isVisibleAscii, isHeaderByte, Bool.or_eq_true, Bool.and_eq_true,
    decide_eq_true_eq, beq_iff_eq, bne_iff_ne] at *
  omega

def fromStr (text : String) : Option HeaderValue :=
  if visible : text.toList.all Text.isVisibleAscii = true then
    some ⟨text, List.all_eq_true.mpr fun character member =>
      isHeaderByte_of_isVisibleAscii (List.all_eq_true.mp visible character member)⟩
  else none

def toStr? (value : HeaderValue) : Option String :=
  if value.text.toList.all Text.isVisibleAscii = true then some value.text else none

end HeaderValue

end Philo
