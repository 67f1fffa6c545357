import GoMms.Foundation.Octets

/-!
# What the Go runtime supplies

Instants as `time.Time` compares them, the UTF-8 check of `unicode/utf8`, and the operations
that are left to the platform: floating-point conversion and the textual forms of an instant.
A development over `Runtime` holds whatever the platform computes there.
-/

namespace GoMms

/-- An instant: seconds since the Unix epoch and the nanoseconds within that second. Two
`time.Time` values denote the same instant exactly when these agree; the location only
affects printing. -/
@[ext] structure Instant where
  unix : Int
  nanosecond : Nat
  below_second : nanosecond < 1000000000
  deriving DecidableEq

namespace Instant

/-- `time.Unix`, which carries nanoseconds outside one second into the seconds. -/
def ofUnix (seconds nanoseconds : Int) : Instant where
  unix := seconds + nanoseconds / 1000000000
  nanosecond := (nanoseconds % 1000000000).toNat
  below_second := by omega

/-- `time.UnixMilli`. -/
def ofUnixMilli (milliseconds : Int) : Instant :=
  ofUnix (milliseconds / 1000) (milliseconds % 1000 * 1000000)

/-- `Time.UnixMilli`, in the arithmetic of int64. -/
def unixMilli (time : Instant) : Int64 :=
  Int64.ofInt (time.unix * 1000 + time.nanosecond / 1000000)

/-- `Time.IsZero`: 1 January of year 1, Go's "not set". -/
def isZero (time : Instant) : Bool :=
  time.unix == -62135596800 && time.nanosecond == 0

/-- The zero value of `time.Time`. -/
def zero : Instant where
  unix := -62135596800
  nanosecond := 0
  below_second := by decide

end Instant

/-- `Format`, after a conversion to UTC, and `time.Parse` with one layout. -/
structure TimeLayout where
  format : Instant → Octets
  parse : Octets → Except String Instant

/-- The operations of the platform. A float64 is its bit pattern throughout. -/
structure Runtime where
  /-- The float32 bits of a float64 rounded to single precision. -/
  narrow : UInt64 → UInt32
  /-- The float64 bits of a float32. -/
  widen : UInt32 → UInt64
  /-- `float64(mantissa) * math.Pow(2, float64(exponent))`. -/
  scale : UInt64 → Int64 → UInt64
  /-- `Format` with the layout of GeneralizedTime. -/
  formatGeneralizedTime : Instant → Octets
  /-- `time.Parse` with the layout of GeneralizedTime. -/
  parseGeneralizedTime : Octets → Except String Instant
  /-- `Format` with `time.RFC3339`. -/
  rfc3339 : Instant → String

instance : Inhabited Runtime where
  default :=
    { narrow := fun bits => bits.toUInt32
      widen := fun bits => bits.toUInt64
      scale := fun mantissa _ => mantissa
      formatGeneralizedTime := fun _ => []
      parseGeneralizedTime := fun _ => .error "no platform"
      rfc3339 := fun _ => "" }

/-- The octets `80..bf` that continue a UTF-8 sequence. -/
def utf8Continues (octet : UInt8) : Bool := 0x80 ≤ octet && octet ≤ 0xbf

/-- `utf8.Valid`: no overlong forms, no surrogates, nothing above U+10FFFF. -/
def utf8Valid : Octets → Bool
  | [] => true
  | first :: rest =>
    if first < 0x80 then utf8Valid rest
    else if 0xc2 ≤ first && first ≤ 0xdf then
      match rest with
      | second :: rest => utf8Continues second && utf8Valid rest
      | _ => false
    else if 0xe0 ≤ first && first ≤ 0xef then
      match rest with
      | second :: third :: rest =>
        (if first == 0xe0 then 0xa0 ≤ second && second ≤ 0xbf
          else if first == 0xed then 0x80 ≤ second && second ≤ 0x9f
          else utf8Continues second) &&
        utf8Continues third && utf8Valid rest
      | _ => false
    else if 0xf0 ≤ first && first ≤ 0xf4 then
      match rest with
      | second :: third :: fourth :: rest =>
        (if first == 0xf0 then 0x90 ≤ second && second ≤ 0xbf
          else if first == 0xf4 then 0x80 ≤ second && second ≤ 0x8f
          else utf8Continues second) &&
        utf8Continues third && utf8Continues fourth && utf8Valid rest
      | _ => false
    else false

end GoMms
