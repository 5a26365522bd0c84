import RttOpcua.Lib.Unique
import RttOpcua.Model.Lemmas.Path

/-!
# Selectors and what they match

The meaning of selectors over raw segments (`SelectorMatches`), and that `parseSelector` and `matches` compute it.
-/

namespace RttOpcua.Model

open RttOpcua.Lib

theorem mem_sortUnique {α : Type} [Ord α] [BEq α] [LawfulBEq α] {x : α} {l : List α} : x ∈ sortUnique l ↔ x ∈ l := by
  rw [sortUnique, mem_eraseReps, List.mem_insertionSort]

/-! ## The order of issues -/

instance : Std.TransOrd SelectorIssueKind where
  eq_swap {a b} := by cases a <;> cases b <;> decide
  isLE_trans {a b c} := by cases a <;> cases b <;> cases c <;> decide

instance : Std.LawfulEqOrd SelectorIssueKind where
  eq_of_compare {a b} := by cases a <;> cases b <;> decide

theorem compare_selectorIssue : (compare : SelectorIssue → SelectorIssue → Ordering) =
    compareLex (compareOn SelectorIssue.kind)
      (compareLex (compareOn SelectorIssue.selector) (compareOn SelectorIssue.reason)) := by
  funext a b
  change ((compare a.kind b.kind).then ((compare a.selector b.selector).then
    ((compare a.reason b.reason).then .eq))) = _
  rw [Ordering.then_eq]
  rfl

instance : Std.TransOrd SelectorIssue := by
  unfold Std.TransOrd
  rw [compare_selectorIssue]
  infer_instance

instance : Std.LawfulEqOrd SelectorIssue where
  eq_of_compare {a b} h := by
    obtain ⟨k, s, r⟩ := a
    obtain ⟨k', s', r'⟩ := b
    rw [compare_selectorIssue] at h
    change (compare k k').then ((compare s s').then (compare r r')) = .eq at h
    simp only [Ordering.then_eq_eq, Std.LawfulEqOrd.compare_eq_iff_eq] at h
    simp only [SelectorIssue.mk.injEq]
    exact h

/-! ## What selectors mean -/

/-- A segment as `escapeNodeIdSegment` writes it. -/
def CanonicalSegment (segment : Str) : Prop := ∃ name, escapeNodeIdSegment name = segment

def WellFormedSegments (segments : List Str) : Prop :=
  ∀ before segment after, segments = before ++ segment :: after →
    segment ≠ [] ∧ (segment = lit "**" → after = []) ∧
      (segment ≠ lit "**" → segment = lit "*" ∨ CanonicalSegment segment)

/-- Not empty, no empty segment, `**` only at the end, and every other segment is `*` or canonical. -/
def WellFormedSelector (selector : Str) : Prop := selector ≠ [] ∧ WellFormedSegments (splitPath selector)

/-- A path of canonical segments. -/
def CanonicalPath (path : Str) : Prop := path ≠ [] ∧ ∀ segment ∈ splitPath path, CanonicalSegment segment

/-- `**` at the end matches any segments, `*` one segment, another segment itself. -/
inductive SegmentsMatch : List Str → List Str → Prop where
  | nil : SegmentsMatch [] []
  | recursive (resource : List Str) : SegmentsMatch [lit "**"] resource
  | single {selector resource : List Str} (name : Str) :
      SegmentsMatch selector resource → SegmentsMatch (lit "*" :: selector) (name :: resource)
  | literal {selector resource : List Str} (name : Str) :
      SegmentsMatch selector resource → SegmentsMatch (name :: selector) (name :: resource)

def SelectorMatches (selector path : Str) : Prop := SegmentsMatch (splitPath selector) (splitPath path)

/-! ## Parsing -/

theorem CanonicalSegment.ne_nil {segment : Str} (h : CanonicalSegment segment) : segment ≠ [] := by
  obtain ⟨name, rfl⟩ := h
  exact escapeNodeIdSegment_ne_nil name

theorem CanonicalSegment.star_not_mem {segment : Str} (h : CanonicalSegment segment) : star ∉ segment := by
  obtain ⟨name, rfl⟩ := h
  exact star_not_mem_escape name

theorem wellFormedSegments_cons {segment : Str} {rest : List Str} :
    WellFormedSegments (segment :: rest) ↔
      (segment ≠ [] ∧ (segment = lit "**" → rest = []) ∧
        (segment ≠ lit "**" → segment = lit "*" ∨ CanonicalSegment segment)) ∧ WellFormedSegments rest := by
  constructor
  · intro h
    exact ⟨h [] segment rest rfl, fun before s after hrest => h (segment :: before) s after (by rw [hrest]; rfl)⟩
  · rintro ⟨hhead, hrest⟩ before s after h
    cases before with
    | nil =>
        obtain ⟨rfl, rfl⟩ := List.cons.inj h
        exact hhead
    | cons b before =>
        obtain ⟨-, hafter⟩ := List.cons.inj h
        exact hrest before s after hafter

/-- What a segment of a selector is parsed to. -/
inductive ParsedSegment : Str → SelectorSegment → Prop where
  | recursive : ParsedSegment (lit "**") .recursiveWildcard
  | single : ParsedSegment (lit "*") .singleWildcard
  | literal {segment decoded : Str} :
      decodeCanonicalSegment segment = some decoded → ParsedSegment segment (.literal decoded)

theorem parseSegments_cons_eq_ok {segment : Str} {rest : List Str} {parsed : List SelectorSegment} :
    parseSegments (segment :: rest) = .ok parsed ↔
      ∃ p more, parsed = p :: more ∧ parseSegments rest = .ok more ∧ ParsedSegment segment p ∧
        (p = .recursiveWildcard → rest = []) := by
  have hmap : ∀ p, (parseSegments rest).map (p :: ·) = .ok parsed ↔
      ∃ more, parsed = p :: more ∧ parseSegments rest = .ok more := by
    intro p
    cases parseSegments rest with
    | error message => simp [Except.map]
    | ok more => simp [Except.map, eq_comm]
  have hcanonical : ∀ {decoded : Str}, decodeCanonicalSegment segment = some decoded → star ∉ segment := fun h =>
    CanonicalSegment.star_not_mem ⟨_, escape_of_decode h⟩
  simp only [parseSegments]
  split
  · rename_i hempty
    subst hempty
    simp only [reduceCtorEq, false_iff]
    rintro ⟨p, more, -, -, hp, -⟩
    cases hp with
    | literal h => exact CanonicalSegment.ne_nil ⟨_, escape_of_decode h⟩ rfl
  · split
    · rename_i hrecursive
      subst hrecursive
      split
      · rename_i hrest
        simp only [reduceCtorEq, false_iff]
        rintro ⟨p, more, -, -, hp, hterminal⟩
        cases hp with
        | recursive => exact hrest (hterminal rfl)
        | literal h => exact hcanonical h (by decide)
      · rename_i hrest
        rw [hmap]
        constructor
        · rintro ⟨more, rfl, hmore⟩
          exact ⟨_, more, rfl, hmore, .recursive, fun _ => not_not.1 hrest⟩
        · rintro ⟨p, more, rfl, hmore, hp, -⟩
          cases hp with
          | recursive => exact ⟨more, rfl, hmore⟩
          | literal h => exact absurd (by decide) (hcanonical h)
    · rename_i hne
      split
      · rename_i hsingle
        subst hsingle
        rw [hmap]
        constructor
        · rintro ⟨more, rfl, hmore⟩
          exact ⟨_, more, rfl, hmore, .single, nofun⟩
        · rintro ⟨p, more, rfl, hmore, hp, -⟩
          cases hp with
          | single => exact ⟨more, rfl, hmore⟩
          | literal h => exact absurd (by decide) (hcanonical h)
      · rename_i hne'
        split
        · rename_i hstar
          simp only [reduceCtorEq, false_iff]
          rintro ⟨p, more, -, -, hp, -⟩
          cases hp with
          | recursive => exact hne rfl
          | single => exact hne' rfl
          | literal h => exact hcanonical h hstar
        · split
          · rename_i hnone
            simp only [reduceCtorEq, false_iff]
            rintro ⟨p, more, -, -, hp, -⟩
            cases hp with
            | recursive => exact hne rfl
            | single => exact hne' rfl
            | literal h => rw [hnone] at h; cases h
          · rename_i decoded hsome
            rw [hmap]
            constructor
            · rintro ⟨more, rfl, hmore⟩
              exact ⟨_, more, rfl, hmore, .literal hsome, nofun⟩
            · rintro ⟨p, more, rfl, hmore, hp, -⟩
              cases hp with
              | recursive => exact absurd rfl hne
              | single => exact absurd rfl hne'
              | literal h =>
                  obtain rfl := Option.some.inj (hsome.symm.trans h)
                  exact ⟨more, rfl, hmore⟩

theorem parseSegments_isOk (segments : List Str) :
    (∃ parsed, parseSegments segments = .ok parsed) ↔ WellFormedSegments segments := by
  induction segments with
  | nil => exact ⟨fun _ before s after h => by simp at h, fun _ => ⟨[], rfl⟩⟩
  | cons segment rest ih =>
      rw [wellFormedSegments_cons, ← ih]
      simp only [parseSegments_cons_eq_ok]
      constructor
      · rintro ⟨_, p, more, rfl, hmore, hp, hterminal⟩
        refine ⟨?_, more, hmore⟩
        cases hp with
        | recursive => exact ⟨by decide, fun _ => hterminal rfl, fun h => absurd rfl h⟩
        | single => exact ⟨by decide, fun h => absurd h (by decide), fun _ => .inl rfl⟩
        | literal h =>
            have hcanonical : CanonicalSegment segment := ⟨_, escape_of_decode h⟩
            refine ⟨hcanonical.ne_nil, fun heq => ?_, fun _ => .inr hcanonical⟩
            exact absurd (by rw [heq]; decide) hcanonical.star_not_mem
      · rintro ⟨⟨-, hterminal, hother⟩, more, hmore⟩
        by_cases heq : segment = lit "**"
        · subst heq
          exact ⟨_, _, more, rfl, hmore, .recursive, fun _ => hterminal rfl⟩
        · rcases hother heq with rfl | ⟨name, rfl⟩
          · exact ⟨_, _, more, rfl, hmore, .single, nofun⟩
          · exact ⟨_, _, more, rfl, hmore, .literal (decodeCanonicalSegment_escape name), nofun⟩

theorem parseSelector_isOk (selector : Str) :
    (∃ parsed, parseSelector selector = .ok parsed) ↔ WellFormedSelector selector := by
  unfold parseSelector WellFormedSelector
  split
  · rename_i h
    simp [h]
  · rename_i h
    simpa [h] using parseSegments_isOk (splitPath selector)

/-- What the segments of a resource are parsed to. -/
def ParsedResource (segments decoded : List Str) : Prop :=
  List.Forall₂ (fun segment name => decodeCanonicalSegment segment = some name) segments decoded

theorem mapM_decode (segments decoded : List Str) :
    (segments.mapM fun segment => if segment = [] then none else decodeCanonicalSegment segment) = some decoded ↔
      ParsedResource segments decoded := by
  have hdecode : ∀ segment : Str, (if segment = [] then none else decodeCanonicalSegment segment) =
      decodeCanonicalSegment segment := by
    intro segment
    split
    · rename_i h
      subst h
      cases hnone : decodeCanonicalSegment [] with
      | none => rfl
      | some decoded => exact absurd rfl (CanonicalSegment.ne_nil ⟨_, escape_of_decode hnone⟩)
    · rfl
  simp only [hdecode]
  induction segments generalizing decoded with
  | nil => cases decoded <;> simp [ParsedResource]
  | cons segment rest ih =>
      cases decoded with
      | nil => simp [ParsedResource, List.mapM_cons, Option.bind_eq_some_iff]
      | cons name names =>
          simp only [List.mapM_cons, Option.bind_eq_bind, Option.bind_eq_some_iff, Option.pure_def,
            Option.some.injEq, List.cons.injEq]
          constructor
          · rintro ⟨name', hname, names', hnames, rfl, rfl⟩
            exact .cons hname ((ih names').1 hnames)
          · intro h
            cases h with
            | cons hname hnames => exact ⟨name, hname, names, (ih names).2 hnames, rfl, rfl⟩

theorem parseResource_eq_some {path : Str} {decoded : List Str} :
    parseResource path = some decoded ↔ path ≠ [] ∧ ParsedResource (splitPath path) decoded := by
  unfold parseResource
  split
  · rename_i h
    simp [h]
  · rename_i h
    rw [mapM_decode]
    simp [h]

theorem parseResource_isSome {path : Str} : (∃ decoded, parseResource path = some decoded) ↔ CanonicalPath path := by
  simp only [parseResource_eq_some, CanonicalPath, exists_and_left]
  refine and_congr_right fun _ => ?_
  constructor
  · rintro ⟨decoded, h⟩ segment hsegment
    obtain ⟨i, hi, rfl⟩ := List.mem_iff_getElem.1 hsegment
    have hdecode := (List.forall₂_iff_get.1 h).2 i hi ((List.forall₂_iff_get.1 h).1 ▸ hi)
    exact decodeCanonicalSegment_isSome.1 ⟨_, hdecode⟩
  · intro h
    generalize splitPath path = segments at h ⊢
    induction segments with
    | nil => exact ⟨[], .nil⟩
    | cons segment rest ih =>
        obtain ⟨decoded, hdecoded⟩ := ih fun s hs => h s (List.mem_cons_of_mem _ hs)
        obtain ⟨name, hname⟩ := decodeCanonicalSegment_isSome.2 (h segment (by simp))
        exact ⟨name :: decoded, .cons hname hdecoded⟩

/-! ## Matching -/

/-- A segment that takes part in a match one to one. -/
def segmentMatches : SelectorSegment → Str → Bool
  | .literal s, name => s = name
  | .singleWildcard, _ => true
  | .recursiveWildcard, _ => false

theorem matchesFixed_cons (p : SelectorSegment) (parsed : List SelectorSegment) (name : Str) (resource : List Str) :
    matchesFixed (p :: parsed) (name :: resource) = (segmentMatches p name && matchesFixed parsed resource) := by
  cases p <;> simp [matchesFixed, segmentMatches]

/-- Without a recursive wildcard at the head, a selector takes a resource segment by segment. -/
theorem selectorMatches_cons {p : SelectorSegment} (hp : p ≠ .recursiveWildcard) (parsed : List SelectorSegment)
    (name : Str) (resource : List Str) :
    selectorMatches (p :: parsed) (name :: resource) = (segmentMatches p name && selectorMatches parsed resource) := by
  cases parsed with
  | nil => cases resource <;> simp [selectorMatches, hp, matchesFixed_cons, matchesFixed]
  | cons q more =>
      by_cases hlast : (q :: more).getLast? = some .recursiveWildcard
      · simp [selectorMatches, hlast, matchesFixed_cons]
        grind
      · simp [selectorMatches, hlast, matchesFixed_cons]
        grind

theorem selectorMatches_nil {p : SelectorSegment} (hp : p ≠ .recursiveWildcard) (parsed : List SelectorSegment) :
    selectorMatches (p :: parsed) [] = false := by
  cases parsed with
  | nil => simp [selectorMatches, hp]
  | cons q more =>
      by_cases hlast : (q :: more).getLast? = some .recursiveWildcard
      · simp [selectorMatches, hlast]
      · simp [selectorMatches, hlast]

theorem segmentMatches_iff {segment name decoded : Str} {p : SelectorSegment} (hp : ParsedSegment segment p)
    (hrecursive : p ≠ .recursiveWildcard) (hname : decodeCanonicalSegment name = some decoded) :
    segmentMatches p decoded = true ↔ segment = lit "*" ∨ segment = name := by
  cases hp with
  | recursive => exact absurd rfl hrecursive
  | single => simp [segmentMatches]
  | literal h =>
      have hne : segment ≠ lit "*" := by
        rintro rfl
        exact absurd (by decide) (CanonicalSegment.star_not_mem ⟨_, escape_of_decode h⟩)
      simp [segmentMatches, hne, decode_inj h hname]

/-- `matches` over parsed segments is the match of the raw ones. -/
theorem selectorMatches_iff {selector : List Str} :
    ∀ {parsed : List SelectorSegment} {resource decoded : List Str}, parseSegments selector = .ok parsed →
      ParsedResource resource decoded → (selectorMatches parsed decoded = true ↔ SegmentsMatch selector resource) := by
  induction selector with
  | nil =>
      intro parsed resource decoded hparsed hresource
      obtain rfl := Except.ok.inj hparsed
      cases hresource with
      | nil => exact ⟨fun _ => .nil, fun _ => rfl⟩
      | cons => exact ⟨fun h => by simp [selectorMatches] at h, nofun⟩
  | cons segment rest ih =>
      intro parsed resource decoded hparsed hresource
      obtain ⟨p, more, rfl, hmore, hp, hterminal⟩ := parseSegments_cons_eq_ok.1 hparsed
      by_cases hrecursive : p = .recursiveWildcard
      · subst hrecursive
        obtain rfl := hterminal rfl
        obtain rfl := Except.ok.inj hmore
        cases hp
        exact ⟨fun _ => .recursive resource, fun _ => by simp [selectorMatches, matchesFixed]⟩
      · have hne : segment ≠ lit "**" := by
          rintro rfl
          cases hp with
          | recursive => exact hrecursive rfl
          | literal h => exact absurd (by decide) (CanonicalSegment.star_not_mem ⟨_, escape_of_decode h⟩)
        cases hresource with
        | nil =>
            rw [selectorMatches_nil hrecursive]
            refine ⟨nofun, fun h => ?_⟩
            cases h
            exact absurd rfl hne
        | @cons name decoded names decodeds hname hnames =>
            rw [selectorMatches_cons hrecursive, Bool.and_eq_true, segmentMatches_iff hp hrecursive hname, ih hmore hnames]
            constructor
            · rintro ⟨rfl | rfl, h⟩
              · exact .single name h
              · exact .literal _ h
            · intro h
              cases h with
              | recursive => exact absurd rfl hne
              | single _ h => exact ⟨.inl rfl, h⟩
              | literal _ h => exact ⟨.inr rfl, h⟩

/-! ## `matchPublicationSelectors` -/

section Publication

variable {selectors resourcePaths : List Str} {resources : List (Str × List Str)}

/-- The issues of one selector. -/
def issuesOf (resources : List (Str × List Str)) (selector : Str) : List SelectorIssue :=
  (matchSelector resources {} selector).issues

theorem matchSelector_issues (result : SelectorMatch) (selector : Str) :
    (matchSelector resources result selector).issues = result.issues ++ issuesOf resources selector := by
  unfold issuesOf matchSelector
  split
  · rfl
  · simp only
    split <;> simp

theorem matchSelector_paths (result : SelectorMatch) (selector path : Str) :
    (matchSelector resources result selector).resourcePaths.contains path = true ↔
      result.resourcePaths.contains path = true ∨ ∃ parsed, parseSelector selector = .ok parsed ∧
        ∃ decoded, (path, decoded) ∈ resources ∧ selectorMatches parsed decoded = true := by
  unfold matchSelector
  split
  · rename_i hparse
    simp [hparse]
  · rename_i parsed hparse
    simp only [OrdSet.contains_insertAll, hparse]
    simp [or_comm]

theorem foldl_matchSelector (selectors : List Str) : ∀ result : SelectorMatch,
    let final := selectors.foldl (matchSelector resources) result
    final.issues = result.issues ++ selectors.flatMap (issuesOf resources) ∧
    ∀ path, final.resourcePaths.contains path = true ↔ result.resourcePaths.contains path = true ∨
      ∃ selector ∈ selectors, ∃ parsed, parseSelector selector = .ok parsed ∧
        ∃ decoded, (path, decoded) ∈ resources ∧ selectorMatches parsed decoded = true := by
  induction selectors with
  | nil => simp
  | cons selector rest ih =>
      intro result
      obtain ⟨hissues, hpaths⟩ := ih (matchSelector resources result selector)
      refine ⟨?_, fun path => ?_⟩
      · rw [List.foldl_cons, hissues, matchSelector_issues]
        simp
      · rw [List.foldl_cons, hpaths, matchSelector_paths]
        simp [or_assoc]

theorem mem_resources {path : Str} {decoded : List Str} :
    (path, decoded) ∈ (resourcePaths.filterMap fun path => (parseResource path).map (path, ·)) ↔
      path ∈ resourcePaths ∧ parseResource path = some decoded := by
  simp only [List.mem_filterMap, Option.map_eq_some_iff, Prod.mk.injEq]
  constructor
  · rintro ⟨path', hmem, decoded', hparse, rfl, rfl⟩
    exact ⟨hmem, hparse⟩
  · rintro ⟨hmem, hparse⟩
    exact ⟨path, hmem, decoded, hparse, rfl, rfl⟩

/-- What a selector matches among the parsed resources. -/
theorem exists_matched {selector path : Str} :
    (∃ parsed, parseSelector selector = .ok parsed ∧ ∃ decoded,
      (path, decoded) ∈ (resourcePaths.filterMap fun path => (parseResource path).map (path, ·)) ∧
        selectorMatches parsed decoded = true) ↔
      path ∈ resourcePaths ∧ CanonicalPath path ∧ WellFormedSelector selector ∧ SelectorMatches selector path := by
  simp only [mem_resources]
  constructor
  · rintro ⟨parsed, hparsed, decoded, ⟨hmem, hdecoded⟩, hmatch⟩
    refine ⟨hmem, parseResource_isSome.1 ⟨_, hdecoded⟩, (parseSelector_isOk _).1 ⟨_, hparsed⟩, ?_⟩
    unfold parseSelector at hparsed
    split at hparsed
    · cases hparsed
    · exact (selectorMatches_iff hparsed (parseResource_eq_some.1 hdecoded).2).1 hmatch
  · rintro ⟨hmem, hpath, hwell, hmatch⟩
    obtain ⟨parsed, hparsed⟩ := (parseSelector_isOk _).2 hwell
    obtain ⟨decoded, hdecoded⟩ := parseResource_isSome.2 hpath
    refine ⟨parsed, hparsed, decoded, ⟨hmem, hdecoded⟩, ?_⟩
    unfold parseSelector at hparsed
    split at hparsed
    · cases hparsed
    · exact (selectorMatches_iff hparsed (parseResource_eq_some.1 hdecoded).2).2 hmatch

/-- The paths that are matched. -/
theorem contains_matchPublicationSelectors (path : Str) :
    (matchPublicationSelectors selectors resourcePaths).resourcePaths.contains path = true ↔
      path ∈ resourcePaths ∧ CanonicalPath path ∧
        ∃ selector ∈ selectors, WellFormedSelector selector ∧ SelectorMatches selector path := by
  unfold matchPublicationSelectors
  simp only
  rw [(foldl_matchSelector selectors {}).2]
  simp only [exists_matched]
  constructor
  · rintro (h | ⟨selector, hselector, hmem, hpath, hwell, hmatch⟩)
    · cases h
    · exact ⟨hmem, hpath, selector, hselector, hwell, hmatch⟩
  · rintro ⟨hmem, hpath, selector, hselector, hwell, hmatch⟩
    exact .inr ⟨selector, hselector, hmem, hpath, hwell, hmatch⟩

/-- The issue of a selector among these paths. -/
def IssueOf (resourcePaths : List Str) (selector : Str) (issue : SelectorIssue) : Prop :=
  (issue.kind = .malformed ∧ issue.selector = selector ∧ parseSelector selector = .error issue.reason) ∨
  (issue = ⟨.unmatched, selector, lit "selector did not match a logical resource"⟩ ∧ WellFormedSelector selector ∧
    ∀ path ∈ resourcePaths, CanonicalPath path → ¬ SelectorMatches selector path)

theorem IssueOf.selector {selector : Str} {issue : SelectorIssue} (h : IssueOf resourcePaths selector issue) :
    issue.selector = selector := by
  rcases h with ⟨-, h, -⟩ | ⟨rfl, -⟩
  · exact h
  · rfl

/-- A selector has an issue if it is malformed or matches nothing. -/
theorem IssueOf.cause {selector : Str} {issue : SelectorIssue} (h : IssueOf resourcePaths selector issue) :
    ¬ WellFormedSelector issue.selector ∨
      ∀ path ∈ resourcePaths, CanonicalPath path → ¬ SelectorMatches issue.selector path := by
  have hselector := h.selector
  subst hselector
  rcases h with ⟨-, -, herror⟩ | ⟨-, -, hno⟩
  · refine .inl fun hwell => ?_
    obtain ⟨parsed, hparsed⟩ := (parseSelector_isOk _).2 hwell
    rw [herror] at hparsed
    cases hparsed
  · exact .inr hno

theorem IssueOf.of_cause {selector : Str} (h : ¬ WellFormedSelector selector ∨
    ∀ path ∈ resourcePaths, CanonicalPath path → ¬ SelectorMatches selector path) :
    ∃ issue, IssueOf resourcePaths selector issue := by
  cases hparse : parseSelector selector with
  | error reason => exact ⟨⟨.malformed, selector, reason⟩, .inl ⟨rfl, rfl, hparse⟩⟩
  | ok parsed =>
      have hwell := (parseSelector_isOk selector).1 ⟨_, hparse⟩
      exact ⟨_, .inr ⟨rfl, hwell, h.resolve_left (not_not.2 hwell)⟩⟩

/-- There is one issue of a selector at most. -/
theorem IssueOf.unique {selector : Str} {issue issue' : SelectorIssue} (h : IssueOf resourcePaths selector issue)
    (h' : IssueOf resourcePaths selector issue') : issue = issue' := by
  rcases h with ⟨hkind, hselector, herror⟩ | ⟨rfl, hwell, -⟩ <;>
    rcases h' with ⟨hkind', hselector', herror'⟩ | ⟨rfl, hwell', -⟩
  · obtain ⟨kind, text, reason⟩ := issue
    obtain ⟨kind', text', reason'⟩ := issue'
    simp only at hkind hselector herror hkind' hselector' herror'
    rw [herror] at herror'
    simp only [hkind, hselector, hkind', hselector', Except.error.inj herror']
  · obtain ⟨parsed, hparsed⟩ := (parseSelector_isOk _).2 hwell'
    rw [herror] at hparsed
    cases hparsed
  · obtain ⟨parsed, hparsed⟩ := (parseSelector_isOk _).2 hwell
    rw [herror'] at hparsed
    cases hparsed
  · rfl

theorem mem_issuesOf {selector : Str} {issue : SelectorIssue} :
    issue ∈ issuesOf (resourcePaths.filterMap fun path => (parseResource path).map (path, ·)) selector ↔
      IssueOf resourcePaths selector issue := by
  unfold issuesOf matchSelector IssueOf
  split
  · rename_i reason hparse
    have hmalformed : ¬ WellFormedSelector selector := by
      rw [← parseSelector_isOk]
      rintro ⟨parsed, hparsed⟩
      rw [hparse] at hparsed
      cases hparsed
    simp only [List.nil_append, List.mem_singleton, hmalformed, false_and, and_false, or_false, hparse,
      Except.error.injEq]
    obtain ⟨kind, text, why⟩ := issue
    simp only [SelectorIssue.mk.injEq]
    exact and_congr_right fun _ => and_congr_right fun _ => eq_comm
  · rename_i parsed hparse
    have hwell := (parseSelector_isOk selector).1 ⟨_, hparse⟩
    have hmatched : ((resourcePaths.filterMap fun path => (parseResource path).map (path, ·)).filter fun r =>
        selectorMatches parsed r.2) = [] ↔ ∀ path ∈ resourcePaths, CanonicalPath path → ¬ SelectorMatches selector path := by
      rw [List.filter_eq_nil_iff]
      constructor
      · intro h path hmem hpath hmatch
        obtain ⟨parsed', hparsed', decoded, hdecoded, hok⟩ := exists_matched.2 ⟨hmem, hpath, hwell, hmatch⟩
        obtain rfl := Except.ok.inj (hparse.symm.trans hparsed')
        exact h _ hdecoded hok
      · rintro h ⟨path, decoded⟩ hdecoded hok
        obtain ⟨hmem, hpath, -, hmatch⟩ := exists_matched.1 ⟨parsed, hparse, decoded, hdecoded, hok⟩
        exact h path hmem hpath hmatch
    simp only [hparse, hwell, true_and, reduceCtorEq, and_false, false_or]
    split
    · rename_i hno
      simpa using fun _ => hmatched.1 hno
    · rename_i hyes
      simpa using fun _ h => hyes (hmatched.2 h)

theorem mem_issues {issue : SelectorIssue} :
    issue ∈ (matchPublicationSelectors selectors resourcePaths).issues ↔
      ∃ selector ∈ selectors, IssueOf resourcePaths selector issue := by
  unfold matchPublicationSelectors
  simp only
  rw [mem_sortUnique, (foldl_matchSelector selectors {}).1]
  simp only [List.nil_append, List.mem_flatMap, mem_issuesOf]

/-- The result depends on the sets of selectors and paths only. -/
theorem matchPublicationSelectors_congr {selectors' resourcePaths' : List Str}
    (hselectors : ∀ s, s ∈ selectors' ↔ s ∈ selectors) (hpaths : ∀ p, p ∈ resourcePaths' ↔ p ∈ resourcePaths) :
    matchPublicationSelectors selectors' resourcePaths' = matchPublicationSelectors selectors resourcePaths := by
  have hresources : (matchPublicationSelectors selectors' resourcePaths').resourcePaths =
      (matchPublicationSelectors selectors resourcePaths).resourcePaths := by
    refine OrdSet.ext_contains fun path => Bool.eq_iff_iff.2 ?_
    rw [contains_matchPublicationSelectors, contains_matchPublicationSelectors]
    simp only [hselectors, hpaths]
  have hissues : (matchPublicationSelectors selectors' resourcePaths').issues =
      (matchPublicationSelectors selectors resourcePaths).issues := by
    refine eq_of_ascending (pairwise_sortUnique _) (pairwise_sortUnique _) fun issue => ?_
    have hleft : issue ∈ (matchPublicationSelectors selectors' resourcePaths').issues ↔ _ := mem_issues
    have hright : issue ∈ (matchPublicationSelectors selectors resourcePaths).issues ↔ _ := mem_issues
    simp only [IssueOf, hselectors, hpaths] at hleft hright
    exact hleft.trans hright.symm
  cases hm : matchPublicationSelectors selectors resourcePaths
  cases hm' : matchPublicationSelectors selectors' resourcePaths'
  rw [hm, hm'] at hresources hissues
  simp only at hresources hissues
  rw [hresources, hissues]

end Publication

end RttOpcua.Model
