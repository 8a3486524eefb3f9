import Helmsman.Number.Decimal
/-!
# What can go wrong with the endpoint

The causes for which a completion fails: the endpoint is not reached, it answers with another status, its stream
breaks off or holds a line that is too long, its answer is no completion, or the caller has lost interest.
-/

namespace Helmsman

inductive ProviderError
  | request (reason : String)
  | status (code : Nat) (body : String)
  | stream (reason : String)
  | lineTooLong (limit : Nat)
  | malformed (reason : String)
  | cancelled
  deriving Repr, DecidableEq

def ProviderError.message : ProviderError → String
  | .request reason => "Failed to reach the LLM endpoint: " ++ reason
  | .status code body => "LLM endpoint returned an error (status=" ++ Decimal.ofNat code ++ "): " ++ body
  | .stream reason => "Failed to read the LLM stream: " ++ reason
  | .lineTooLong limit => "Stream line exceeds " ++ Decimal.ofNat limit ++ " bytes"
  | .malformed reason => "Malformed LLM response: " ++ reason
  | .cancelled => "LLM request cancelled"

end Helmsman
