import Philo.Domain.Limits
import Philo.Foundation.Base64

/-! Image content, which only exists after the checks of its constructors. -/

namespace Philo

open Result Text

inductive ImageMime where
  | png | jpeg | webp | gif
  deriving DecidableEq, Repr

namespace ImageMime

def asStr : ImageMime → String
  | png => "image/png"
  | jpeg => "image/jpeg"
  | webp => "image/webp"
  | gif => "image/gif"

def fromMediaType (value : String) : Option ImageMime :=
  [png, jpeg, webp, gif].find? fun mime => mime.asStr == value

theorem fromMediaType_eq_some {value : String} {mime : ImageMime} :
    fromMediaType value = some mime ↔ mime.asStr = value := by
  constructor
  · intro found
    have same := List.find?_some found
    exact beq_iff_eq.mp same
  · rintro rfl
    cases mime <;> rfl

end ImageMime

inductive ImageDetail where
  | auto | low | high | original
  deriving DecidableEq, Repr

/-- The parts of a `url::Url` that the image checks read, and its serialization. -/
structure ImageUrl where
  serialized : String
  scheme : String
  username : String
  password : Option String
  deriving DecidableEq

inductive ImageSource where
  | url (url : ImageUrl)
  | inline (mime : ImageMime) (bytes : List UInt8)
  | dataUrl (text : String)
  deriving DecidableEq

def validateHttpsImageUrl (url : ImageUrl) : Except ValidationError Unit := do
  reject (url.scheme ≠ "https")
    ⟨"image.url", .invalidIdentifier, "image URL must use the https scheme"⟩
  reject (url.username ≠ "" ∨ url.password.isSome = true)
    ⟨"image.url", .invalidIdentifier,
      "image URL must not contain embedded user information"⟩
  reject (ResourceLimits.official.maxImageUrlBytes < Text.len url.serialized)
    ⟨"image.url", .outOfRange, "image URL exceeds the frozen UTF-8 byte limit"⟩

private def ascii (text : String) : List UInt8 := text.toList.map Char.toUInt8

def matchesMagicBytes (mime : ImageMime) (bytes : List UInt8) : Bool :=
  match mime with
  | .png => [0x89, 0x50, 0x4E, 0x47, 0x0D, 0x0A, 0x1A, 0x0A].isPrefixOf bytes
  | .jpeg => [0xFF, 0xD8, 0xFF].isPrefixOf bytes
  | .webp => 12 ≤ bytes.length && bytes.take 4 == ascii "RIFF" &&
      (bytes.drop 8).take 4 == ascii "WEBP"
  | .gif => (ascii "GIF87a").isPrefixOf bytes || (ascii "GIF89a").isPrefixOf bytes

def validateInlineImage (mime : ImageMime) (bytes : List UInt8) (limits : ResourceLimits) :
    Except ValidationError Unit := do
  reject (bytes = [])
    ⟨"image.bytes", .empty, "inline image payload must be non-empty"⟩
  reject (limits.maxInlineImageBytes < bytes.length)
    ⟨"image.bytes", .outOfRange, "inline image exceeds the frozen byte limit"⟩
  reject (matchesMagicBytes mime bytes = false)
    ⟨"image.bytes", .invalidIdentifier,
      "inline image magic bytes do not match the declared MIME type"⟩

private def dataUrlError (message : String) : ValidationError :=
  ⟨"image.data_url", .invalidIdentifier, message⟩

/-- `parse_image_data_url`, and `decode_validated_data_url`, which repeats it. The codec is
`BASE64_STANDARD`. -/
def parseImageDataUrl (codec : Base64.Codec) (dataUrl : String) :
    Except ValidationError (ImageMime × List UInt8) := do
  reject ('\n' ∈ dataUrl.toList ∨ '\r' ∈ dataUrl.toList)
    (dataUrlError "image data URL must not contain line breaks")
  let rest ← okOr (Text.stripStart dataUrl "data:")
    (dataUrlError "image data URL must start with data:")
  let (header, payload) ← okOr (Text.splitOnce rest ',')
    (dataUrlError "image data URL must contain a base64 payload separator")
  reject (Text.startsWith header " " = true ∨ Text.endsWith header " " = true ∨
      Text.startsWith payload " " = true ∨ ' ' ∈ header.toList)
    (dataUrlError "image data URL must not contain whitespace around the header or comma")
  let (mediaType, encoding) ← okOr (Text.splitOnce header ';')
    (dataUrlError "image data URL must declare a base64 encoding")
  reject (encoding ≠ "base64") (dataUrlError "image data URL must use base64 encoding")
  let mime ← okOr (ImageMime.fromMediaType mediaType)
    (dataUrlError "image data URL MIME type is not supported")
  reject (payload = "")
    ⟨"image.data_url", .empty, "image data URL payload must be non-empty"⟩
  let decoded ← okOr (codec.decode payload)
    (dataUrlError "image data URL payload is not valid base64")
  .ok (mime, decoded)

/-- What `from_url`, `from_inline` and `from_data_url` check. -/
def ImageSource.validate (codec : Base64.Codec) : ImageSource → Except ValidationError Unit
  | url target => validateHttpsImageUrl target
  | inline mime bytes => validateInlineImage mime bytes .official
  | dataUrl text => do
    let (mime, payload) ← parseImageDataUrl codec text
    validateInlineImage mime payload .official

structure ImageContent where
  source : ImageSource
  detail : ImageDetail
  validated : ∃ codec : Base64.Codec, codec.Laws ∧ source.validate codec = .ok ()

namespace ImageContent

variable (codec : Base64.Codec) (laws : codec.Laws)

def new (source : ImageSource) (detail : ImageDetail) : Except ValidationError ImageContent :=
  match validated : source.validate codec with
  | .ok () => .ok ⟨source, detail, codec, laws, validated⟩
  | .error error => .error error

def encodeInlineDataUrl (mime : ImageMime) (bytes : List UInt8) : String :=
  "data:" ++ mime.asStr ++ ";base64," ++ codec.encode bytes

include laws

/-- The data URLs that are read are those that inline images are sent as. -/
theorem parseImageDataUrl_iff (text : String) (mime : ImageMime) (bytes : List UInt8) :
    parseImageDataUrl codec text = .ok (mime, bytes) ↔
      bytes ≠ [] ∧ encodeInlineDataUrl codec mime bytes = text := by
  simp only [parseImageDataUrl, bind_eq_ok, okOr_eq_ok, reject_eq_ok, exists_const, Prod.exists,
    stripStart_eq_some, splitOnce_eq_some, ImageMime.fromMediaType_eq_some,
    laws.canonical, Except.ok.injEq, Prod.mk.injEq]
  constructor
  · rintro ⟨_, _, rfl, _, _, ⟨_, rfl⟩, _, _, _, ⟨_, rfl⟩, isBase64, _, rfl, notEmpty, _, rfl, rfl,
      rfl⟩
    rw [Decidable.not_not.mp isBase64]
    refine ⟨?_, by rw [← String.toList_inj]; simp [encodeInlineDataUrl]⟩
    rintro rfl
    exact notEmpty laws.nothing
  · rintro ⟨notEmpty, rfl⟩
    have header : ',' ∉ (mime.asStr ++ ";base64").toList ∧ ';' ∉ mime.asStr.toList ∧
        '\n' ∉ mime.asStr.toList ∧ '\r' ∉ mime.asStr.toList ∧
          ¬ (startsWith (mime.asStr ++ ";base64") " " = true ∨
            endsWith (mime.asStr ++ ";base64") " " = true ∨
              ' ' ∈ (mime.asStr ++ ";base64").toList) := by
      cases mime <;> decide
    rcases header with ⟨noComma, noSemicolon, noNewline, noReturn, noSpace⟩
    have newline : '\n' ∉ (codec.encode bytes).toList :=
      laws.not_mem_encode (by decide) (by decide)
    have return' : '\r' ∉ (codec.encode bytes).toList :=
      laws.not_mem_encode (by decide) (by decide)
    have space : startsWith (codec.encode bytes) " " = true → False := by
      intro starts
      have written : ' ' ∈ (codec.encode bytes).toList :=
        (List.isPrefixOf_iff_prefix.mp starts).subset (by decide)
      exact laws.not_mem_encode (by decide) (by decide) written
    have payload := laws.encode_ne_empty notEmpty
    refine ⟨by simp [encodeInlineDataUrl, *], mime.asStr ++ ";base64," ++ codec.encode bytes, ?_,
      mime.asStr ++ ";base64", codec.encode bytes, ⟨noComma, ?_⟩, by simp_all, mime.asStr,
      "base64", ⟨noSemicolon, ?_⟩, by simp, mime, rfl, payload, bytes, rfl, rfl, rfl⟩
    all_goals rw [← String.toList_inj]; simp [encodeInlineDataUrl]

/-- A data URL is accepted exactly if some accepted inline image is sent as it. -/
theorem dataUrl_accepted_iff (text : String) :
    (ImageSource.dataUrl text).validate codec = .ok () ↔ ∃ mime bytes,
      (ImageSource.inline mime bytes).validate codec = .ok () ∧
        encodeInlineDataUrl codec mime bytes = text := by
  have read := parseImageDataUrl_iff codec laws text
  rw [ImageSource.validate, bind_eq_ok]
  constructor
  · rintro ⟨⟨mime, bytes⟩, parsed, valid⟩
    exact ⟨mime, bytes, valid, ((read mime bytes).mp parsed).2⟩
  · rintro ⟨mime, bytes, valid, encoded⟩
    have notEmpty : bytes ≠ [] := by
      rintro rfl
      cases valid
    exact ⟨(mime, bytes), (read mime bytes).mpr ⟨notEmpty, encoded⟩, valid⟩

omit laws in
theorem gifHeader_accepted :
    (∃ mime bytes, (ImageSource.inline mime bytes).validate Base64.standard = .ok () ∧
      encodeInlineDataUrl Base64.standard mime bytes =
        "data:image/gif;base64,R0lGODlhAQ==") ∧
    ∀ text ∈ ["data:image/gif;base64,R0lGODlhAQ", "data:image/gif;base64,R0lGODlhAR=="],
      ¬ ∃ mime bytes, (ImageSource.inline mime bytes).validate Base64.standard = .ok () ∧
        encodeInlineDataUrl Base64.standard mime bytes = text := by
  have accepted := dataUrl_accepted_iff _ Base64.laws_standard
  constructor
  · exact (accepted _).mp (by decide +kernel)
  · have refused : ∀ text ∈ ["data:image/gif;base64,R0lGODlhAQ",
        "data:image/gif;base64,R0lGODlhAR=="],
        (ImageSource.dataUrl text).validate Base64.standard ≠ .ok () := by decide +kernel
    intro text member sent
    exact refused text member ((accepted text).mpr sent)

end ImageContent

end Philo
