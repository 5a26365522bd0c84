import RttOpcua.Model.Path
import RttOpcua.Lib.OrdMap
import Mathlib.Data.List.Sort

/-!
# Publication selectors

`src/publication_selector.cpp`.
-/

namespace RttOpcua.Model

open RttOpcua.Lib

/-- `std::sort` and then `std::unique`. -/
def sortUnique {α : Type} [Ord α] [BEq α] (l : List α) : List α :=
  (l.insertionSort fun a b => (compare a b).isLE).eraseReps

/-- `'*'`. -/
def star : UInt8 := 42

inductive SelectorSegment where
  | literal (s : Str)
  | singleWildcard
  | recursiveWildcard
  deriving DecidableEq, Repr

inductive SelectorIssueKind where
  | malformed
  | unmatched
  deriving DecidableEq, Repr, Ord

structure SelectorIssue where
  kind : SelectorIssueKind
  selector : Str
  reason : Str
  deriving DecidableEq, Repr, Ord

structure SelectorMatch where
  resourcePaths : OrdSet Str := ∅
  issues : List SelectorIssue := []

def isUpperHexDigit (c : UInt8) : Bool := 48 ≤ c && c ≤ 57 || 65 ≤ c && c ≤ 70

def hexValue (c : UInt8) : UInt8 := if 48 ≤ c && c ≤ 57 then c - 48 else c - 65 + 10

/-- The loop of `decodeCanonicalSegment`. -/
def decodeEscapes : Str → Option Str
  | [] => some []
  | c :: rest =>
      if c ≠ percent then (decodeEscapes rest).map (c :: ·)
      else
        match rest with
        | high :: low :: rest' =>
            if isUpperHexDigit high && isUpperHexDigit low then
              (decodeEscapes rest').map ((hexValue high <<< 4 ||| hexValue low) :: ·)
            else none
        | _ => none

def decodeCanonicalSegment (segment : Str) : Option Str :=
  match decodeEscapes segment with
  | some decoded => if escapeNodeIdSegment decoded = segment then some decoded else none
  | none => none

def splitPath (path : Str) : List Str := path.splitOn slash

/-- The loop of `parseSelector`; the error is the reason. -/
def parseSegments : List Str → Except Str (List SelectorSegment)
  | [] => .ok []
  | segment :: rest =>
      if segment = [] then .error (lit "selector contains an empty segment")
      else if segment = lit "**" then
        if rest ≠ [] then .error (lit "recursive wildcard must be terminal")
        else (parseSegments rest).map (.recursiveWildcard :: ·)
      else if segment = lit "*" then (parseSegments rest).map (.singleWildcard :: ·)
      else if star ∈ segment then .error (lit "wildcard must occupy an entire segment")
      else
        match decodeCanonicalSegment segment with
        | none => .error (lit "literal segment is not canonically escaped")
        | some decoded => (parseSegments rest).map (.literal decoded :: ·)

def parseSelector (selector : Str) : Except Str (List SelectorSegment) :=
  if selector = [] then .error (lit "selector is empty") else parseSegments (splitPath selector)

def parseResource (path : Str) : Option (List Str) :=
  if path = [] then none
  else (splitPath path).mapM fun segment => if segment = [] then none else decodeCanonicalSegment segment

/-- The loop of `matches` over the segments before a recursive wildcard. -/
def matchesFixed : List SelectorSegment → List Str → Bool
  | [], _ => true
  | .singleWildcard :: rest, _ :: resource => matchesFixed rest resource
  | .literal s :: rest, name :: resource => s = name && matchesFixed rest resource
  | _, _ => false

def selectorMatches (selector : List SelectorSegment) (resource : List Str) : Bool :=
  let recursive := selector.getLast? = some .recursiveWildcard
  let fixed := if recursive then selector.length - 1 else selector.length
  if ¬ recursive ∧ resource.length ≠ fixed ∨ recursive ∧ resource.length < fixed then false
  else matchesFixed (selector.take fixed) resource

def matchSelector (resources : List (Str × List Str)) (result : SelectorMatch) (selector : Str) : SelectorMatch :=
  match parseSelector selector with
  | .error reason => { result with issues := result.issues ++ [⟨.malformed, selector, reason⟩] }
  | .ok parsed =>
      let matched := resources.filter fun r => selectorMatches parsed r.2
      { resourcePaths := OrdSet.insertAll result.resourcePaths (matched.map Prod.fst)
        issues :=
          if matched = [] then
            result.issues ++ [⟨.unmatched, selector, lit "selector did not match a logical resource"⟩]
          else result.issues }

def matchPublicationSelectors (selectors resourcePaths : List Str) : SelectorMatch :=
  let resources := resourcePaths.filterMap fun path => (parseResource path).map (path, ·)
  let result := selectors.foldl (matchSelector resources) {}
  { result with issues := sortUnique result.issues }

end RttOpcua.Model
