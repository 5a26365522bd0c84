import RttOpcua.Server.Lemmas.Lifecycle

/-!
# Lifecycle calls of callbacks

Callers who keep the lifecycle calls of callbacks apart from those of other threads, and where a call of a callback then
is.
-/

namespace RttOpcua.Server

open RttOpcua.Lib Threads

variable {validation : Option Str} {c c' : Config Tid Shared Frame} {t : Tid} {a : Choice} {s s' : Shared} {pc : RunPc}
  {k : Call} {f' : Frame} {r : Nat}

/-! ## The callers -/

/-- The server thread, where callbacks run. -/
def Tid.isServer : Tid → Bool
  | .app _ => false
  | .run _ => true

/-- What another thread may not be in while a callback is in `k`. -/
def Call.clashes (k other : Call) : Bool :=
  match k, other with
  | .start _, .start _ => true
  | .start _, .stop _ => true
  | .start _, .requestStop _ => true
  | .stop _, .start _ => true
  | .stop _, .stop _ => true
  | _, _ => false

/-- Thread `t` may call `api` while thread `u` is in `k`. -/
def Api.apart (t : Tid) (api : Api) (u : Tid) (k : Call) : Bool :=
  (!t.isServer || !api.enter.clashes k) && (!u.isServer || !k.clashes api.enter)

/-- The callers keep the lifecycle calls of callbacks apart from those of other threads: while a callback is in `start`
or `stop` no other thread is, while it is in `start` none is in `requestStop`, and it calls `start` only in the state
`running`. -/
def CallersApart (c : Config Tid Shared Frame) (t : Tid) (a : Choice) : Prop :=
  ∀ api, a = .call api →
    (t.isServer = true → api = .start → c.shared.currentState = .running) ∧
    ∀ u, u ≠ t → ∀ k, (c.frame u).call = some k → api.apart t u k = true

/-! ## The calls of callbacks -/

/-- Where a `start` of a callback may be: before its check the state is `running`, and with that it returns. -/
def StartPc.finds (s : Shared) : StartPc → Prop
  | .lockTransition | .validate | .lockLifecycle | .check => s.currentState = .running
  | .setFailure | .copyError none _ | .leave none _ _ => True
  | _ => False

def StopPc.joins : StopPc → Bool
  | .join _ => true
  | _ => false

/-- Where the call of a callback may be. -/
def Call.inCallback (s : Shared) : Call → Prop
  | .start p => p.finds s
  | .stop p => p.joins = false
  | _ => True

/-- The calls of callbacks are apart from those of other threads, and none of them joins. -/
structure Apart (c : Config Tid Shared Frame) : Prop where
  clashes : ∀ r u k k', u ≠ .run r → (c.frame (.run r)).call = some k → (c.frame u).call = some k' →
    k.clashes k' = false
  point : ∀ r k, (c.frame (.run r)).call = some k → k.inCallback c.shared

/-- A call stays the call that it is. -/
theorem clashes_call (h : callAction validation t a s pc k = some (s', f')) {k' : Call} (hk : f'.call = some k') :
    (∀ other : Call, k'.clashes other = k.clashes other) ∧ ∀ other : Call, other.clashes k' = other.clashes k := by
  cases callStep h
  case inline => cases hk
  all_goals
    obtain ⟨p', -, rfl⟩ := Option.map_eq_some_iff.1 hk
    exact ⟨fun other => by cases other <;> rfl, fun other => by cases other <;> rfl⟩

/-- A callback in a call goes on. -/
theorem inCallback_call (hid : s.serverThreadId = some r) (hk : k.inCallback s)
    (h : callAction validation (.run r) a s pc k = some (s', f')) {k' : Call} (hk' : f'.call = some k') :
    k'.inCallback s' := by
  cases callStep h
  case inline => cases hk'
  case start p p' hp =>
    obtain ⟨p', rfl, rfl⟩ := Option.map_eq_some_iff.1 hk'
    replace hp := startAction_step hp
    cases hp
    case copyError run ok _ => cases run <;> exact hk
    all_goals simp_all [Call.inCallback, StartPc.finds]
  case stop p p' hp =>
    obtain ⟨p', rfl, rfl⟩ := Option.map_eq_some_iff.1 hk'
    replace hp := stopAction_step hp
    cases hp
    all_goals simp_all [Call.inCallback, StopPc.joins]
  all_goals
    obtain ⟨p', -, rfl⟩ := Option.map_eq_some_iff.1 hk'
    trivial

/-- A server thread in a call is alive. -/
theorem alive_of_call (hc : lifecycle.Holds c) (hk : (c.frame (.run r)).call = some k) :
    c.shared.Alive r ∧ c.shared.serverThreadId = some r := by
  obtain ⟨ht, hcall⟩ := hc.2 (.run r)
  have hu := (hcall k hk).1
  generalize (c.frame (.run r)).pc = p at hu ht
  cases p
  all_goals simp only [userCode, RunPc.inline, Option.isSome, reduceCtorEq] at hu
  all_goals exact ht.2.2.1 rfl

/-- A run that takes a step is alive. -/
theorem alive_of_run (hc : lifecycle.Holds c) {p' : RunPc}
    (h : runAction r a c.shared (c.frame (.run r)).pc = some (s', p')) : c.shared.Alive r := by
  obtain ⟨hunborn, -, hlive, -⟩ := (hc.2 (.run r)).1
  generalize (c.frame (.run r)).pc = p at h hunborn hlive
  cases p
  case unborn =>
    simp only [runAction, Option.ite_none_right_eq_some] at h
    exact ⟨h.1.1, hunborn rfl⟩
  case exited => cases h
  all_goals exact (hlive rfl).1

/-- While a callback is in `start`, other threads leave the state alone. -/
theorem currentState_of_clashes {p : StartPc} (hclash : (Call.start p).clashes k = false)
    (h : callAction validation t a s pc k = some (s', f')) : s'.currentState = s.currentState := by
  cases callStep h
  case post hp => exact (SameLifecycle.of_postAction hp).currentState
  case invoke hp => exact (SameLifecycle.of_invokeAction hp).currentState
  case inline => rfl
  all_goals cases hclash

/-- Another thread leaves the call of a callback where it is. -/
theorem inCallback_of_state (h : s'.currentState = s.currentState) (hk : k.inCallback s) : k.inCallback s' := by
  cases k
  case start p => cases p <;> simp_all [Call.inCallback, StartPc.finds]
  all_goals exact hk

/-- It is enough to look at the call of the thread that acts. -/
theorem Apart.update {f : Frame} (h : Apart c)
    (hother : ∀ r k, t ≠ .run r → (c.frame (.run r)).call = some k → k.inCallback c.shared → k.inCallback s')
    (hown : ∀ r k, t = .run r → f.call = some k → k.inCallback s')
    (hclash : ∀ u k k', u ≠ t → f.call = some k → (c.frame u).call = some k' →
      (t.isServer = true → k.clashes k' = false) ∧ (u.isServer = true → k'.clashes k = false)) :
    Apart ⟨s', Function.update c.frame t f⟩ := by
  refine ⟨fun r u k k' hu hk hk' => ?_, fun r k hk => ?_⟩
  · by_cases ht : t = .run r
    · subst ht
      simp only [Function.update_self, Function.update_of_ne hu] at hk hk'
      exact (hclash u k k' hu hk hk').1 rfl
    · simp only [Function.update_of_ne (Ne.symm ht)] at hk
      by_cases hut : u = t
      · subst hut
        simp only [Function.update_self] at hk'
        exact (hclash (.run r) k' k (Ne.symm ht) hk' hk).2 rfl
      · simp only [Function.update_of_ne hut] at hk'
        exact h.clashes r u k k' hu hk hk'
  · by_cases ht : t = .run r
    · subst ht
      simp only [Function.update_self] at hk
      exact hown r k rfl hk
    · simp only [Function.update_of_ne (Ne.symm ht)] at hk
      exact hother r k ht hk (h.point r k hk)

theorem apart_call (hc : lifecycle.Holds c) (h : Apart c) (hk : (c.frame t).call = some k)
    (hs : callAction validation t a c.shared (c.frame t).pc k = some (s', f')) :
    Apart ⟨s', Function.update c.frame t f'⟩ := by
  refine h.update (fun r j ht hj hpoint => ?_) (fun r j ht hj => ?_) fun u j j' hu hj hj' => ?_
  · -- another thread than the callback acts
    cases j with
    | start p => exact inCallback_of_state (currentState_of_clashes (h.clashes r t _ _ ht hj hk) hs) hpoint
    | stop p => exact hpoint
    | requestStop p | post callable p | invoke callable timeout p => trivial
  · subst ht
    exact inCallback_call (alive_of_call hc hk).2 (h.point r k hk) hs hj
  · obtain ⟨hleft, hright⟩ := clashes_call hs hj
    rw [hleft, hright]
    constructor
    · intro hserver
      cases t with
      | app n => cases hserver
      | run r => exact h.clashes r u k j' hu hk hj'
    · intro hserver
      cases u with
      | app n => cases hserver
      | run r => exact h.clashes r t j' k (Ne.symm hu) hj' hk

theorem apart_step (hc : lifecycle.Holds c) (h : Apart c) (hok : CallersApart c t a)
    (hn : (program validation).next c t a = some c') : Apart c' := by
  obtain ⟨s', f', hf, rfl⟩ := next_eq_some.mp hn
  obtain ⟨k, hk, hs⟩ | ⟨api, hnone, rfl, -, rfl, rfl⟩ | ⟨r, p', hnone, rfl, hp, rfl⟩ := frameAction_cases hf
  · exact apart_call hc h hk hs
  · obtain ⟨hstart, hothers⟩ := hok api rfl
    refine h.update (fun _ _ _ _ hpoint => hpoint) (fun r k ht hk => ?_) fun u k k' hu hk hk' => ?_
    · subst ht
      obtain rfl := Option.some.inj hk
      cases api with
      | start => exact hstart rfl rfl
      | stop => rfl
      | requestStop | post callable | invoke callable timeout => trivial
    · obtain rfl := Option.some.inj hk
      have hapart := hothers u hu k' hk'
      simp only [Api.apart, Bool.and_eq_true, Bool.or_eq_true, Bool.not_eq_true'] at hapart
      exact ⟨fun ht => hapart.1.resolve_left (by simp [ht]), fun ht => hapart.2.resolve_left (by simp [ht])⟩
  · refine h.update (fun r' k ht hk _ => ?_) (fun _ _ _ hk => by cases hk) fun _ _ _ _ hk => by cases hk
    -- only one run is alive, and it is in user code
    have hown := hc.1.newest r (alive_of_run hc hp)
    have hother := hc.1.newest r' (alive_of_call hc hk).1
    obtain rfl : r = r' := by omega
    exact absurd rfl ht

end RttOpcua.Server
