/-!
# Media types

Which content types announce a JSON text: `application/json`, and `application/` followed by
anything that ends in `+json`, in capitals or not and with well-formed parameters after it.
-/

namespace LoadTest

/-- A character that may stand in the names of a media type. -/
def isToken (c : Char) : Bool :=
  c.isAlphanum ||
    c ∈ ['!', '#', '$', '%', '&', '\x27', '*', '+', '-', '.', '^', '_', '\x60', '|', '~']

/-- A character that may stand in the header of a request: a printable one of ASCII. -/
def isPrintable (c : Char) : Bool := 31 < c.toNat && c.toNat < 127

/-- Is this the rest of a quoted parameter value, followed by well-formed parameters? `empty` says
that nothing of the value has been read, and then a quote does not end it. A backslash is a
character like others. -/
def parametersAfterQuote (parameters : List Char → Bool) : (empty : Bool) → List Char → Bool
  | _, [] => false
  | false, '"' :: s =>
    match s.dropWhile (· = ' ') with
    | [] => true
    | ';' :: s => parameters s
    | _ => false
  | _, c :: s => isPrintable c && parametersAfterQuote parameters false s

/-- Are these well-formed parameters? Each is a name, an equals sign and a value, and the first
comes after any number of spaces. The fuel bounds their number. -/
def areParameters : (fuel : Nat) → List Char → Bool
  | 0, _ => false
  | fuel + 1, s =>
    match s.dropWhile (· = ' ') with
    | [] => true
    | s =>
      let name := s.takeWhile isToken
      match s.dropWhile isToken with
      | '=' :: '"' :: s => !name.isEmpty && parametersAfterQuote (areParameters fuel) true s
      | '=' :: s =>
        let value := s.takeWhile isToken
        !name.isEmpty
          && match s.dropWhile isToken with
            | [] => true
            | ';' :: s => !value.isEmpty && areParameters fuel s
            | _ => false
      | _ => false

def announcesJson (contentType : String) : Bool :=
  let s := contentType.toList
  let type := s.takeWhile isToken
  match s.dropWhile isToken with
  | '/' :: s =>
    let subtype := s.takeWhile isToken
    let parameters := match s.dropWhile isToken with
      | [] => true
      | ';' :: rest => areParameters (rest.length + 1) rest
      | _ => false
    let small := subtype.map Char.toLower
    let plus := small.drop 1 |>.reverse |>.takeWhile (· ≠ '+') |>.reverse
    let hasPlus := '+' ∈ small.drop 1
    type.map Char.toLower == "application".toList && parameters
      && if hasPlus then
          plus == "json".toList || small.take (small.length - plus.length - 1) == "json".toList
        else small == "json".toList
  | _ => false

end LoadTest
