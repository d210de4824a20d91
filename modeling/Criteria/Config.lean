import Criteria.Text.Scan
import Criteria.Filter.Chain

/-!
# Configurations

A configuration holds what is policy in reading queries: how the combinators are
matched, into which shape a chain is assembled, and how many bytes a query may
have.  A limit of zero makes sense of no query but the empty one and is not valid.
-/

namespace Criteria

structure Config where
  keywordCase : KeywordCase := .caseless
  chainShape : ChainShape := .threaded
  /-- The most bytes a query may have.  Without a limit any length will do. -/
  maxLength : Option UInt64 := none
  deriving DecidableEq

namespace Config

instance : Inhabited Config := ⟨{}⟩

def isValid (config : Config) : Bool := config.maxLength != some 0

/-- The limit that a text of `length` bytes exceeds. -/
def exceeded? (config : Config) (length : Nat) : Option UInt64 :=
  config.maxLength.filter (·.toNat < length)

theorem exceeded?_eq_some_iff {config : Config} {length : Nat} {limit : UInt64} :
    config.exceeded? length = some limit ↔
      config.maxLength = some limit ∧ limit.toNat < length := by
  simp [exceeded?, Option.filter_eq_some_iff]

end Config
end Criteria
