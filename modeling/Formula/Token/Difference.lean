import Formula.Token.Stream

/-! Where two token streams differ. -/

namespace Formula

def matchingTokens : List Token → List Token → Bool
  | [], [] => true
  | a :: as, b :: bs => a.matching b && matchingTokens as bs
  | _, _ => false

/-- What sets one list of tokens apart from another, by the place of the token. A token that only
one side has is missing or extra. -/
def tokenDifferences (place : Nat) : List Token → List Token → List (Nat × List String)
  | [], [] => []
  | a :: as, [] => (place, ["Missing: " ++ a.display]) :: tokenDifferences (place + 1) as []
  | [], b :: bs => (place, ["Extra: " ++ b.display]) :: tokenDifferences (place + 1) [] bs
  | a :: as, b :: bs =>
    let rest := tokenDifferences (place + 1) as bs
    match a.differences b with
    | [] => rest
    | lines => (place, lines) :: rest

namespace TokenStream

/-- Equally many tokens, and each matches the one at its place. -/
def matching (a b : TokenStream) : Bool := matchingTokens a.tokens b.tokens

def differences (a b : TokenStream) : List (Nat × List String) :=
  if a.matching b then [] else tokenDifferences 0 a.tokens b.tokens

end TokenStream
end Formula
