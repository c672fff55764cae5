import Mathlib.Data.String.Basic

/-!
# The context of a request

Who makes a request and for which application, as the headers say it. A header that is absent reads
as the empty text.
-/

namespace Signare

/-- `unicode.IsSpace`. -/
def isSpace (c : Char) : Bool :=
  let n := c.toNat
  (9 ≤ n && n ≤ 13) || n == 0x20 || n == 0x85 || n == 0xa0 || n == 0x1680 ||
    (0x2000 ≤ n && n ≤ 0x200a) || n == 0x2028 || n == 0x2029 || n == 0x202f || n == 0x205f ||
    n == 0x3000

/-- `strings.TrimSpace`. -/
def trimSpace (s : String) : String :=
  String.ofList (((s.toList.dropWhile isSpace).reverse.dropWhile isSpace).reverse)

/-- The first value of the header of the user and of that of the application. -/
structure RequestHeaders where
  user : Option String
  application : Option String
  deriving DecidableEq

/-- `DefineUser`. -/
def RequestHeaders.definedUser (headers : RequestHeaders) : String :=
  trimSpace (headers.user.getD "")

/-- What `DefineApplication` reads. -/
def RequestHeaders.definedApplication (headers : RequestHeaders) : String :=
  trimSpace (headers.application.getD "")

/-- The application of the context of an HTTP request, which has none where the header is absent. -/
def RequestHeaders.contextApplication (headers : RequestHeaders) : Option String :=
  if headers.application.getD "" = "" then none else some headers.definedApplication

end Signare
