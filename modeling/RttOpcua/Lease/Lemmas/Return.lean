import Mathlib.Data.Prod.Lex
import RttOpcua.Lease.Lemmas.Retain
import RttOpcua.Lib.Progress

/-!
# How far a call is from its return

How many actions a call takes at most when it does not have to wait, if the operations that are asked whether they are
done answer `n` more times that they are not.
-/

namespace RttOpcua.Lease

open RttOpcua.Lib Threads

/-! ## Questions to operations -/

def ReapPc.asks : ReapPc → Bool
  | .scan (_ :: _) _ => true
  | _ => false

/-- The next step asks a handle or a future. -/
def Pc.asks : Pc → Bool
  | .wait _ _ _ => true
  | .waitHere _ _ _ => true
  | .waitPending _ => true
  | .shutdown (.drain (.reap pc) _) => pc.asks
  | .reaper (.reap pc) => pc.asks
  | _ => false

def Choice.notDone : Choice → Bool
  | .collected r => !r.done
  | _ => false

/-- Of `n` answers that an operation is not done a step leaves `n'`. -/
def Spends (asks : Bool) (a : Choice) (n n' : Nat) : Prop :=
  if asks = true ∧ a.notDone = true then n = n' + 1 else n' = n

/-- The answer that an operation is done. -/
def done : Choice := .collected (.status .sendSuccess)

theorem spends_done (asks : Bool) (n : Nat) : Spends asks done n n := by
  simp [Spends, done, Choice.notDone, Collected.done]

section Actions

variable {t : Thread} {a : Choice} {s s' : Shared} {l l' : Pc} {n n' : Nat}

/-! ## Reads, writes and invocations -/

/-- Of a frame of an invocation after its operation was started. -/
def Pc.serveLeft (n : Nat) : Pc → Nat
  | .access _ => 1
  | .outputs _ _ k => 2 * n + k + 9
  | .check _ _ => 2 * n + 8
  | .ready _ _ => 2 * n + 7
  | .wait _ _ _ => 2 * n + 6
  | .late _ _ _ => 2 * n + 7
  | .retain _ _ _ => n + 4
  | .waitHere _ _ _ => n + 2
  | .leave _ => 1
  | .push _ => n + 3
  | .waitPending _ => n + 2
  | .keep _ => 1
  | _ => 0

/-- The number of outputs is not known before the operation is started. -/
def Pc.serveSize (n : Nat) : Pc → ℕ ×ₗ ℕ
  | .build _ => toLex (1, 0)
  | l => toLex (0, l.serveLeft n)

theorem invoke_size (hn : Spends l.asks a n n') (h : invokeAction a s l = some (s', l')) :
    l'.serveSize n' < l.serveSize n := by
  replace h := invokeAction_step h
  cases h
  case wait k x o r ha =>
    subst ha
    cases hr : r.done
    all_goals simp [Spends, Pc.asks, Choice.notDone, hr] at hn
    all_goals simp [Pc.serveSize, Pc.serveLeft, Prod.Lex.toLex_lt_toLex]
    omega
  case waitHere k x o r ha =>
    subst ha
    cases hr : r.done
    all_goals simp [Spends, Pc.asks, Choice.notDone, hr] at hn
    all_goals simp [Pc.serveSize, Pc.serveLeft, Prod.Lex.toLex_lt_toLex]
    omega
  case waitPending p r ha =>
    subst ha
    cases hr : r.done
    all_goals simp [Spends, Pc.asks, Choice.notDone, hr] at hn
    all_goals simp [Pc.serveSize, Pc.serveLeft, Prod.Lex.toLex_lt_toLex]
    omega
  all_goals obtain rfl : n' = n := by simpa [Spends, Pc.asks] using hn
  all_goals simp [Pc.serveSize, Pc.serveLeft, Prod.Lex.toLex_lt_toLex]
  all_goals omega

theorem invoke_enabled (hserves : l.serves = true) (hidle : l ≠ .idle) (hm : s.mutex = none) :
    ∃ r, threadAction t done s l = some r := by
  cases l
  case idle => exact absurd rfl hidle
  case publish | beginShutdown | shutdown | reaper => cases hserves
  case push p =>
    simp only [threadAction, invokeAction, hm, ne_eq, not_true_eq_false, if_false]
    split
    all_goals exact ⟨_, rfl⟩
  case outputs x o k =>
    cases k
    all_goals exact ⟨_, rfl⟩
  all_goals exact ⟨_, rfl⟩

/-! ## Passes over the retained invocations -/

/-- What passes have still to do. A pass that has asked something and found nothing done has spent an answer, so that
another pass may follow; otherwise an invocation goes when it ends. -/
def reapWork (n : Nat) (s : Shared) : ReapPc → Nat
  | .scan rest found =>
      n + s.invocations.length + if found = [] ∧ rest.length < s.invocations.length then 1 else 0
  | .erase _ => n + s.invocations.length + if s.invocations = [] then 0 else 1

def ReapPc.left : ReapPc → Nat
  | .scan rest found => 2 * rest.length + found.length + 5
  | .erase found => found.length + 4

def reapSize (n : Nat) (s : Shared) (pc : ReapPc) : ℕ ×ₗ ℕ := toLex (reapWork n s pc, pc.left)

theorem filter_length_lt {p : Nat} {found xs : List Nat} (hp : p ∈ found) (hmem : p ∈ xs) :
    (xs.filter fun q => q ∉ found).length < xs.length := by
  refine List.length_filter_lt_length_iff_exists.mpr ⟨p, hmem, ?_⟩
  simpa using hp

theorem reap_size {pc pc' : ReapPc} (hlisted : reapListed s pc) (hn : Spends pc.asks a n n')
    (h : reapAction a s pc = some (s', some pc')) : reapSize n' s' pc' < reapSize n s pc := by
  replace h := reapAction_step h
  refine Prod.Lex.toLex_lt_toLex.mpr ?_
  cases h
  case ask p rest found r ha =>
    subst ha
    have hinv : (s.collect (s.pending p).operation r).invocations = s.invocations := (SameLocks.of_collect _ _).2
    have hsome : 0 < s.invocations.length := List.length_pos_of_mem (hlisted.1 p (by simp))
    cases hr : r.done
    all_goals simp only [Spends, ReapPc.asks, Choice.notDone, hr] at hn
    all_goals simp [reapWork, ReapPc.left, hinv] at hn ⊢
    all_goals grind
  case remove found =>
    obtain rfl : n' = n := by simpa [Spends, ReapPc.asks] using hn
    cases found with
    | nil =>
        simp [reapWork, ReapPc.left]
        by_cases hinv : s.invocations = []
        · simp [hinv]
        · simp [hinv, List.length_pos_iff.mpr hinv]
    | cons p found =>
        have hless : (s.invocations.filter fun q => q ∉ p :: found).length < s.invocations.length :=
          filter_length_lt (by simp) (hlisted.2 p (by simp))
        simp only [reapWork, ReapPc.left]
        grind
  case erase p found =>
    obtain rfl : n' = n := by simpa [Spends, ReapPc.asks] using hn
    have hinv : (s.dropListed p).invocations = s.invocations := (SameLocks.of_dropListed p).2
    simp [reapWork, ReapPc.left, hinv]

theorem reap_ends {pc : ReapPc} (h : reapAction a s pc = some (s', none)) : pc = .erase [] ∧ s' = s := by
  unfold reapAction at h
  repeat' split at h
  all_goals simp_all

theorem reap_enabled (pc : ReapPc) : ∃ r, reapAction done s pc = some r := by
  cases pc with
  | scan rest found =>
      cases rest
      all_goals exact ⟨_, rfl⟩
  | erase found =>
      cases found
      all_goals exact ⟨_, rfl⟩

/-- Until nothing is retained and `mutex` is free. -/
def reaperSize (n : Nat) (s : Shared) : ReaperPc → ℕ ×ₗ ℕ
  | .asleep => toLex (n + s.invocations.length, if s.invocations = [] then 0 else 2 * s.invocations.length + 7)
  | .awake => toLex (n + s.invocations.length, 2 * s.invocations.length + 6)
  | .reap pc => reapSize n s pc
  | .gone => toLex (0, 0)

theorem reaper_size {pc pc' : ReaperPc} (hpoint : reaperControl s pc) (hn : Spends (Pc.reaper pc).asks a n n')
    (hwork : pc = .asleep → s.invocations ≠ []) (h : reaperAction a s pc = some (s', pc')) :
    reaperSize n' s' pc' < reaperSize n s pc := by
  replace h := reaperAction_step h
  cases h
  case reap rpc rpc' hr => exact reap_size hpoint hn hr
  case reaped rpc s₁ hr =>
    obtain ⟨rfl, rfl⟩ := reap_ends hr
    obtain rfl : n' = n := by simpa [Spends, Pc.asks, ReapPc.asks] using hn
    simp [reaperSize, reapSize, reapWork, ReapPc.left, Prod.Lex.toLex_lt_toLex]
    grind
  all_goals obtain rfl : n' = n := by simpa [Spends, Pc.asks] using hn
  case wake hm =>
    have hinv := hwork rfl
    simp [reaperSize, Prod.Lex.toLex_lt_toLex, hinv]
  case stop =>
    simp [reaperSize, Prod.Lex.toLex_lt_toLex]
    omega
  case idle hnot hinv => simp [reaperSize, Prod.Lex.toLex_lt_toLex, hinv]
  case pass hnot hinv => simp [reaperSize, reapSize, reapWork, ReapPc.left, Prod.Lex.toLex_lt_toLex]

theorem reaper_enabled {pc : ReaperPc} (hm : pc = .asleep → s.mutex = none) (hgone : pc ≠ .gone) :
    ∃ r, threadAction t done s (.reaper pc) = some r := by
  cases pc
  case asleep => simp [threadAction, reaperAction, hm rfl]
  case awake =>
    simp only [threadAction, reaperAction]
    split
    · exact ⟨_, rfl⟩
    · split
      all_goals exact ⟨_, rfl⟩
  case reap rpc =>
    obtain ⟨r, hr⟩ := reap_enabled (s := s) rpc
    exact ⟨_, by rw [threadAction, reaperAction, hr, Option.map_some]; rfl⟩
  case gone => exact absurd rfl hgone

/-- Until the drain has returned. -/
def drainSize (n : Nat) (s : Shared) : DrainPc → ℕ ×ₗ ℕ
  | .mark => toLex (n + s.invocations.length, 2 * s.invocations.length + 8)
  | .join => toLex (n + s.invocations.length, 2 * s.invocations.length + 7)
  | .lock => toLex (n + s.invocations.length, 2 * s.invocations.length + 6)
  | .reap pc => reapSize n s pc
  | .test => toLex (n + s.invocations.length + if s.invocations = [] then 0 else 1, 3)

theorem drain_size {pc pc' : DrainPc} {closing : List Nat} (hpoint : drainControl s pc)
    (hn : Spends (Pc.shutdown (.drain pc closing)).asks a n n') (h : drainAction t a s pc = some (s', some pc')) :
    drainSize n' s' pc' < drainSize n s pc := by
  replace h := drainAction_step h
  cases h
  case reap rpc r hr =>
    cases r with
    | some rpc' => exact reap_size hpoint.2 hn hr
    | none =>
        obtain ⟨rfl, rfl⟩ := reap_ends hr
        obtain rfl : n' = n := by simpa [Spends, Pc.asks, ReapPc.asks] using hn
        simp [drainSize, reapSize, reapWork, ReapPc.left, Prod.Lex.toLex_lt_toLex]
  all_goals obtain rfl : n' = n := by simpa [Spends, Pc.asks] using hn
  case again hinv => simp [drainSize, Prod.Lex.toLex_lt_toLex, hinv]
  all_goals simp [drainSize, reapSize, reapWork, ReapPc.left, Prod.Lex.toLex_lt_toLex]

theorem drain_enabled {pc : DrainPc} (hm : pc.holds = false → s.mutex = none) (hjoin : pc = .join → s.reaperGone = true) :
    ∃ r, drainAction t done s pc = some r := by
  cases pc
  case mark | lock => simp [drainAction, hm rfl]
  case join => simp [drainAction, hjoin rfl]
  case reap rpc =>
    obtain ⟨r, hr⟩ := reap_enabled (s := s) rpc
    simp [drainAction, hr]
  case test =>
    simp only [drainAction]
    split
    all_goals exact ⟨_, rfl⟩

theorem drain_thread_enabled {pc : DrainPc} {closing : List Nat} (hm : pc.holds = false → s.mutex = none)
    (hjoin : pc = .join → s.reaperGone = true) : ∃ r, threadAction t done s (.shutdown (.drain pc closing)) = some r := by
  obtain ⟨r, hr⟩ := drain_enabled (t := t) hm hjoin
  exact ⟨_, by rw [threadAction, shutdownAction, hr, Option.map_some]; rfl⟩

/-! ## The holder of `mutex` -/

/-- The thread is in a drain, or it is the reaper. -/
def Pc.passes : Pc → Bool
  | .shutdown (.drain _ _) => true
  | .reaper _ => true
  | _ => false

def Pc.passSize (n : Nat) (s : Shared) : Pc → ℕ ×ₗ ℕ
  | .shutdown (.drain pc _) => drainSize n s pc
  | .reaper pc => reaperSize n s pc
  | _ => toLex (0, 0)

theorem pass_size (hl : l.passes = true) (hpoint : pointControl s l) (hn : Spends l.asks a n n')
    (hwork : l = .reaper .asleep → s.invocations ≠ []) (h : threadAction t a s l = some (s', l')) :
    l'.passSize n' s' < l.passSize n s := by
  cases threadStep h
  case shutdown pc pc' hp =>
    replace hp := shutdownAction_step hp
    cases hp
    case drain dpc closing d hd =>
      cases d with
      | some dpc' => exact drain_size hpoint hn hd
      | none =>
          replace hd := drainAction_step hd
          cases hd
          simp [Pc.passSize, afterDrain, drainSize, Prod.Lex.toLex_lt_toLex]
          omega
    all_goals cases hl
  case reaper pc pc' hp => exact reaper_size hpoint hn (fun hpc => hwork (congrArg Pc.reaper hpc)) hp
  case invoke hp =>
    have hserves := (invoke_serves hp).1
    cases l
    case shutdown | reaper => cases hserves
    all_goals cases hl
  all_goals cases hl

/-! ## Publications and shutdowns -/

def PublishPc.left : PublishPc → Nat
  | .lock _ => 7
  | .check _ => 6
  | .work _ => 5
  | .deactivate _ => 4
  | .await _ => 3
  | .abandon _ => 2
  | .unlock => 1

/-- While nothing is retained. -/
def DrainPc.left : DrainPc → Nat
  | .mark => 10
  | .join => 9
  | .lock => 8
  | .reap pc => pc.left + 2
  | .test => 1

/-- With `k` states to close. -/
def ShutdownPc.left (k : Nat) : ShutdownPc → Nat
  | .close => 2 * k + 16
  | .once => 2 * k + 15
  | .swap => 2 * k + 14
  | .drain pc closing => 2 * closing.length + pc.left + 3
  | .deactivate closing => 2 * closing.length + 2
  | .await _ closing => 2 * closing.length + 3
  | .leave => 1

def Pc.left (s : Shared) : Pc → Nat
  | .publish pc => pc.left
  | .beginShutdown => 1
  | .shutdown pc => pc.left (s.components.length + s.abandoned.length)
  | _ => 0

theorem publish_left {pc : PublishPc} {r : Option PublishPc} (h : publishAction t a s pc = some (s', r)) :
    r.elim 0 PublishPc.left < pc.left := by
  replace h := publishAction_step h
  cases h
  all_goals simp [PublishPc.left]

theorem drain_left {pc : DrainPc} {r : Option DrainPc} (hinv : s.invocations = [])
    (h : drainAction t a s pc = some (s', r)) : r.elim 0 DrainPc.left < pc.left := by
  replace h := drainAction_step h
  cases h
  case reap rpc r hr =>
    cases r with
    | none =>
        obtain ⟨rfl, rfl⟩ := reap_ends hr
        simp [DrainPc.left, ReapPc.left]
    | some rpc' =>
        replace hr := reapAction_step hr
        cases hr
        case ask p rest found r ha =>
          simp only [Option.elim_some, DrainPc.left, ReapPc.left, List.length_cons]
          grind
        all_goals simp [DrainPc.left, ReapPc.left]
  case again hnot => exact absurd hinv hnot
  case lock hm => simp [DrainPc.left, ReapPc.left, hinv]
  all_goals simp [DrainPc.left]

theorem shutdown_left {pc : ShutdownPc} {r : Option ShutdownPc} (hinv : s.invocations = [])
    (h : shutdownAction t a s pc = some (s', r)) :
    r.elim 0 (ShutdownPc.left (s'.components.length + s'.abandoned.length)) <
      pc.left (s.components.length + s.abandoned.length) := by
  replace h := shutdownAction_step h
  cases h
  case drain dpc closing d hd =>
    have hless := drain_left hinv hd
    cases d
    all_goals simp [afterDrain, ShutdownPc.left] at hless ⊢
    all_goals omega
  case swap hc => simp [ShutdownPc.left, DrainPc.left]
  all_goals simp [ShutdownPc.left]
  all_goals omega

theorem publish_enabled {pc : PublishPc} (hc : pc.holds = false → s.commandMutex = none)
    (hu : ∀ x, (s.state x).users = 0) : ∃ r, publishAction t done s pc = some r := by
  cases pc
  case lock => simp [publishAction, hc rfl]
  case await x => simp [publishAction, hu x]
  all_goals simp only [publishAction]
  all_goals repeat' split
  all_goals exact ⟨_, rfl⟩

theorem shutdown_enabled {pc : ShutdownPc} (honce : ∀ u, pc = .once → s.shutdownOnce ≠ .running u)
    (hc : s.commandMutex = none) (hm : pc.holds = false → s.mutex = none)
    (hu : pc.holds = false → ∀ x, (s.state x).users = 0)
    (hjoin : ∀ closing, pc = .drain .join closing → s.reaperGone = true) :
    ∃ r, shutdownAction t done s pc = some r := by
  cases pc
  case once =>
    simp only [shutdownAction]
    split
    case h_2 u h => exact absurd h (honce u rfl)
    all_goals exact ⟨_, rfl⟩
  case swap => simp [shutdownAction, hc]
  case drain pc closing =>
    obtain ⟨r, hr⟩ := drain_enabled (t := t) hm fun hpc => hjoin closing (by rw [hpc])
    simp [shutdownAction, hr]
  case await x closing => simp [shutdownAction, hu rfl x]
  case deactivate closing =>
    cases closing
    all_goals exact ⟨_, rfl⟩
  all_goals exact ⟨_, rfl⟩

/-! ## Calls that hold no leases -/

/-- A publication or a shutdown retains no invocation, and serves none. -/
theorem keeps_empty (hl : l.serves = false) (h : threadAction t a s l = some (s', l')) :
    (s.invocations = [] → s'.invocations = []) ∧ (l' = .idle ∨ l'.serves = false) := by
  have hreap : ∀ {pc r s'}, reapAction a s pc = some (s', r) → s.invocations = [] → s'.invocations = [] := by
    intro pc r s' hr hinv
    replace hr := reapAction_step hr
    cases hr
    case ask => rw [(SameLocks.of_collect _ _).2, hinv]
    case remove => simp [hinv]
    case erase p found => rw [(SameLocks.of_dropListed p).2, hinv]
    case erased => exact hinv
  cases threadStep h
  case enter | enterPublish | enterBeginShutdown | enterShutdown => cases hl
  case publish pc pc' hp =>
    replace hp := publishAction_step hp
    cases hp
    all_goals exact ⟨id, by simp [Pc.serves]⟩
  case beginShutdown => exact ⟨id, .inl rfl⟩
  case shutdown pc pc' hp =>
    replace hp := shutdownAction_step hp
    cases hp
    case drain dpc closing d hd =>
      refine ⟨fun hinv => ?_, .inr rfl⟩
      replace hd := drainAction_step hd
      cases hd
      case reap hr => exact hreap hr hinv
      all_goals exact hinv
    all_goals exact ⟨id, by simp [Pc.serves]⟩
  case reaper pc pc' hp =>
    refine ⟨fun hinv => ?_, .inr rfl⟩
    replace hp := reaperAction_step hp
    cases hp
    case reap hr => exact hreap hr hinv
    case reaped rpc s₁ hr =>
      have hinv₁ : s₁.invocations = [] := hreap hr hinv
      exact hinv₁
    all_goals exact hinv
  case invoke hp =>
    rw [(invoke_serves hp).1] at hl
    cases hl

end Actions

end RttOpcua.Lease
