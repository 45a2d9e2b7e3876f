import AssetGraph.Cache.Ranges
import AssetGraph.Cache.Results
import AssetGraph.Dns.Client
import AssetGraph.Http.Client
import AssetGraph.Rdap.Client

/-!
# Plans

A resolution is a tree of the steps that it takes: looking into the caches, asking the world outside, and keeping what
it learned. What the world answers is a function of the requests so far, and `Plan.run` carries a plan out against it.
A request without an answer ends the run there, with everything done so far in place and nothing after it.
-/
namespace AssetGraph.Resolve

inductive Request where
  | rdap (request : Rdap.Request)
  | dns (question : Dns.Question)
  | http (url : String)
  deriving DecidableEq, Repr

def Request.Answer : Request → Type
  | rdap _ => Except Rdap.ClientError Rdap.Response
  | dns _ => Except Dns.ClientError (List Dns.Record)
  | http _ => Except Http.ClientError Http.Response

/-- The steps of a resolution that gives an `α`. -/
inductive Plan (α : Type) where
  | done (result : α)
  | lookUp (key : Identity) (ignoreCache : Bool) (next : Option Outcome → Plan α)
  | findAddress (address : Address) (next : Option Rdap.IpNetwork → Plan α)
  | findNetwork (network : Network) (next : Option Rdap.IpNetwork → Plan α)
  | ask (request : Request) (next : request.Answer → Plan α)
  | remember (network : Network) (allocation : Rdap.IpNetwork) (ttl : Nat) (next : Plan α)
  | keep (key : Identity) (outcome : Outcome) (ttl : Nat) (next : Plan α)

namespace Plan

def bind {α β : Type} : Plan α → (α → Plan β) → Plan β
  | done a, f => f a
  | lookUp key ignoreCache next, f => lookUp key ignoreCache fun o => (next o).bind f
  | findAddress a next, f => findAddress a fun n => (next n).bind f
  | findNetwork n next, f => findNetwork n fun m => (next m).bind f
  | ask r next, f => ask r fun answer => (next answer).bind f
  | remember n allocation ttl next, f => remember n allocation ttl (next.bind f)
  | keep key outcome ttl next, f => keep key outcome ttl (next.bind f)

instance : Monad Plan where
  pure := done
  bind := bind

end Plan

/-- The world outside: the answer to a request after those sent before, or none at all. -/
abbrev World := List Request → (r : Request) → Option r.Answer

/-- The clock in milliseconds, the caches, and the requests sent so far. -/
structure State where
  now : Nat := 0
  results : Cache.Results := {}
  ranges : Cache.Ranges Rdap.IpNetwork := {}
  requests : List Request := []

namespace Plan

/-- Carries out a plan. The result is none when a request was never answered. -/
def run {α : Type} (world : World) : Plan α → State → Option α × State
  | done a, s => (some a, s)
  | lookUp key ignoreCache next, s =>
    let (outcome, results) := s.results.lookup s.now key ignoreCache
    (next outcome).run world { s with results }
  | findAddress a next, s =>
    let (found, ranges) := s.ranges.searchAddress s.now a
    (next found).run world { s with ranges }
  | findNetwork n next, s =>
    let (found, ranges) := s.ranges.searchNetwork s.now n
    (next found).run world { s with ranges }
  | ask r next, s =>
    let asked := { s with requests := s.requests ++ [r] }
    match world s.requests r with
    | some answer => (next answer).run world asked
    | none => (none, asked)
  | remember n allocation ttl next, s =>
    next.run world { s with ranges := s.ranges.store s.now n allocation ttl }
  | keep key outcome ttl next, s =>
    next.run world { s with results := s.results.settle s.now key outcome ttl }

end Plan
end AssetGraph.Resolve
