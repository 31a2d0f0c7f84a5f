import Depict.Proofs.Logging.Views
import Depict.Session

/-!
# One console at most

In every state of a session at most one console receives messages, and it is the one that was set
up last. Setting up logging leaves the host's handlers as they are, and a console that it
installs stands behind them, with the resolved level as its own and as the level of all.
-/
namespace Depict

namespace Logging
variable {l : Logging}

/-- At most one console receives messages, and it is the one that was set up last; serial numbers
are given once. -/
structure Orderly (l : Logging) : Prop where
  attached : l.attached = [] ∨ ∃ c, l.installed = some c ∧ l.attached = [c]
  serial : ∀ c, l.installed = some c → c.serial < l.consoles

theorem orderly_initial : initial.Orderly where
  attached := .inl rfl
  serial c hc := by cases hc

theorem Orderly.attached_detach (h : l.Orderly) : l.detach.attached = [] := by
  rcases h.attached with hnil | ⟨c, hc, hone⟩
  · cases hi : l.installed with
    | none => rw [detach, hi, hnil]
    | some c => rw [Logging.attached_detach hi, hnil, List.erase_nil]
  · rw [Logging.attached_detach hc, hone, List.erase_cons_head]

/-- The console that was set up last, taken out and closed, while it is still known. -/
def closeInstalled (l : Logging) (c : Console) : Logging :=
  { l.detach with closed := l.closed ++ [.console c] }

/-- What retiring the console does: nothing without one, else it is taken out and closed, and it is
forgotten unless its closing raises anything but a system fault. -/
theorem retire_cases (l : Logging) :
    (l.installed = none ∧ l.retire = (.ok (), l, .none)) ∨
      ∃ c, l.installed = some c ∧
        ((∃ out, (∀ r, l.obstacle = some r → r.kind = .system) ∧
            l.retire =
              (.ok (), { l.closeInstalled c with installed := none, obstacle := none }, out)) ∨
          ∃ r, l.obstacle = some r ∧ r.kind ≠ .system ∧
            l.retire = (.error (.raised r), l.closeInstalled c, .none)) := by
  cases hi : l.installed with
  | none => exact .inl ⟨rfl, by rw [retire, hi]⟩
  | some c =>
    right
    have ho : l.detach.obstacle = l.obstacle := by rw [detach, hi]
    refine ⟨c, rfl, ?_⟩
    rw [retire, hi, ← ho]
    dsimp only
    split
    · next hr => exact .inl ⟨_, by simp [hr], rfl⟩
    · next r hr =>
      by_cases hs : r.kind = .system
      · rw [if_pos hs]
        exact .inl ⟨_, by simpa [hr] using hs, rfl⟩
      · rw [if_neg hs]
        exact .inr ⟨r, hr, hs, rfl⟩

/-- Whatever comes of it, retiring the console touches neither the host's handlers nor the count of
consoles, closes at most that console and takes it out. -/
theorem retire_keeps (hl : l.Orderly) {x : Except Fault Unit} {l' : Logging} {out : Output}
    (hr : l.retire = (x, l', out)) :
    l'.hostNumbers = l.hostNumbers ∧ l'.consoles = l.consoles ∧ l'.attached = [] ∧
      (l'.installed = none ∨ l'.installed = l.installed) ∧
      (l'.closed = l.closed ∨ ∃ c, l.installed = some c ∧ l'.closed = l.closed ++ [.console c]) := by
  have hdetach := hl.attached_detach
  rcases retire_cases l with ⟨hi, hn⟩ | ⟨c, hi, ⟨o, -, ho⟩ | ⟨r, -, -, ho⟩⟩
  · obtain ⟨rfl, rfl, rfl⟩ : (.ok () = x) ∧ l = l' ∧ Output.none = out := by
      simpa using hn.symm.trans hr
    rw [detach, hi] at hdetach
    exact ⟨rfl, rfl, hdetach, .inl hi, .inl rfl⟩
  · have hl' : { l.closeInstalled c with installed := none, obstacle := none } = l' := by
      simpa using congrArg (·.2.1) (ho.symm.trans hr)
    subst hl'
    exact ⟨l.hostNumbers_detach, l.consoles_detach, hdetach, .inl rfl, .inr ⟨c, hi, rfl⟩⟩
  · have hl' : l.closeInstalled c = l' := by
      simpa using congrArg (·.2.1) (ho.symm.trans hr)
    subst hl'
    exact ⟨l.hostNumbers_detach, l.consoles_detach, hdetach, .inr l.installed_detach,
      .inr ⟨c, hi, rfl⟩⟩

/-- What is closed in retiring is the console, never a host's handler. -/
theorem host_mem_closed_of_retire (hl : l.Orderly) {x : Except Fault Unit} {l' : Logging}
    {out : Output} (hr : l.retire = (x, l', out)) {n : Nat} (hn : Handler.host n ∈ l'.closed) :
    Handler.host n ∈ l.closed := by
  obtain ⟨-, -, -, -, hsame | ⟨c, -, hmore⟩⟩ := retire_keeps hl hr
  · rwa [hsame] at hn
  · simpa [hmore] using hn

theorem Orderly.install (h : l.attached = []) (level : Level) (style : Style) :
    (l.install level style).Orderly where
  attached := .inr ⟨_, rfl, by rw [attached_install, h, List.nil_append]⟩
  serial c hc := by
    rw [← Option.some.inj hc]
    exact Nat.lt_succ_self l.consoles

/-- A change that keeps the consoles, the one that was set up last and their count keeps the order. -/
theorem Orderly.of_consoles_eq {l' : Logging} (h : l.Orderly) (ha : l'.attached = l.attached)
    (hi : l'.installed = l.installed) (hc : l'.consoles = l.consoles) : l'.Orderly where
  attached := by
    rw [ha, hi]
    exact h.attached
  serial := by
    rw [hi, hc]
    exact h.serial

theorem Orderly.addHost (h : l.Orderly) : l.addHost.Orderly :=
  h.of_consoles_eq l.attached_addHost rfl rfl

theorem Orderly.removeHost (h : l.Orderly) (number : Nat) : (l.removeHost number).Orderly :=
  h.of_consoles_eq (l.attached_removeHost number) rfl rfl

theorem Orderly.restoreHost (h : l.Orderly) (number : Nat) : (l.restoreHost number).Orderly :=
  h.of_consoles_eq (l.attached_restoreHost number) (l.installed_restoreHost number)
    (l.consoles_restoreHost number)

theorem Orderly.setLevel (h : l.Orderly) (level : Level) : (l.setLevel level).Orderly :=
  h.of_consoles_eq rfl rfl rfl

theorem Orderly.breakClose (h : l.Orderly) (r : Raised) : (l.breakClose r).Orderly :=
  h.of_consoles_eq (l.attached_breakClose r) (l.installed_breakClose r) (l.consoles_breakClose r)

theorem Orderly.detach (h : l.Orderly) : l.detach.Orderly where
  attached := .inl h.attached_detach
  serial := by
    rw [installed_detach, consoles_detach]
    exact h.serial

theorem Orderly.of_retire (h : l.Orderly) {x : Except Fault Unit} {l' : Logging} {out : Output}
    (hr : l.retire = (x, l', out)) : l'.Orderly := by
  obtain ⟨-, hcount, hnil, hinstalled, -⟩ := retire_keeps h hr
  refine ⟨.inl hnil, fun c hc => ?_⟩
  rw [hcount]
  rcases hinstalled with hnone | hsame
  · rw [hnone] at hc
    cases hc
  · exact h.serial c (hsame ▸ hc)

end Logging

namespace SetupRequest

/-- A wish that is resolved has the level that its level alone resolves to. -/
theorem level_of_resolve {r : SetupRequest} {s t : Settings} {level : Level} {style : Style}
    (h : r.resolve s = (.ok (level, style), t)) : (r.level.resolve s).1 = .ok level := by
  unfold resolve at h
  split at h
  · cases h
  · next level' s' hlevel =>
    split at h
    · cases h
    · rw [hlevel, (Prod.mk.inj (Except.ok.inj (Prod.mk.inj h).1)).1]

end SetupRequest

/-- What replacing the console comes to when the wish for one is resolved to this: the answer, the
handlers, and what is put out. -/
def Logging.renew (l : Logging) (force : Bool) (wish : Except Fault (Level × Style)) :
    Except Fault Reply × Logging × Output :=
  if l.isAttached && !force then (.ok .done, l, .none)
  else match wish with
    | .error f => (.error f, l, .none)
    | .ok (level, style) =>
      match l.retire with
      | (.error f, l, out) => (.error f, l, out)
      | (.ok (), l, out) => (.ok .done, l.install level style, out)

namespace Logging
variable {l : Logging} {force : Bool}

theorem renew_of_error (h : ¬ (l.isAttached = true ∧ force = false)) (f : Fault) :
    l.renew force (.error f) = (.error f, l, .none) :=
  if_neg (by simpa using h)

/-- A wish that is granted installs a console, unless the old one cannot be closed. -/
theorem renew_of_ok (h : ¬ (l.isAttached = true ∧ force = false)) (level : Level) (style : Style) :
    (∃ (l' : Logging) (out : Output), l'.consoles = l.consoles ∧
        l.renew force (.ok (level, style)) = (.ok .done, l'.install level style, out)) ∨
      ∃ c x, l.installed = some c ∧ l.obstacle = some x ∧ x.kind ≠ .system ∧
        l.renew force (.ok (level, style)) = (.error (.raised x), l.closeInstalled c, .none) := by
  unfold renew
  rw [if_neg (by simpa using h)]
  rcases retire_cases l with ⟨-, hr⟩ | ⟨c, hc, ⟨out, -, hr⟩ | ⟨x, hx, hk, hr⟩⟩
  · exact .inl ⟨l, _, rfl, by rw [hr]⟩
  · refine .inl ⟨_, _, ?_, by rw [hr]⟩
    exact l.consoles_detach
  · exact .inr ⟨c, x, hc, hx, hk, by rw [hr]⟩

end Logging

/-- What a step comes to apart from the settings that it leaves. -/
def Result.effect (t : Result) : Except Fault Reply × Logging × Output :=
  (t.reply, t.session.logging, t.output)

theorem Result.effect_eq_iff {t : Result} {reply : Except Fault Reply} {l : Logging}
    {out : Output} :
    t.effect = (reply, l, out) ↔ t.reply = reply ∧ t.session.logging = l ∧ t.output = out := by
  simp [effect]

namespace Session

/-- Setting up depends on the settings only through the wish that they resolve. -/
theorem setup_effect (s : Session) (r : SetupRequest) :
    (s.setup r).effect = s.logging.renew r.force (r.resolve s.settings).1 := by
  unfold setup Logging.renew
  split
  · rfl
  · rcases r.resolve s.settings with ⟨f | ⟨level, style⟩, settings⟩
    · rfl
    · dsimp only
      rcases s.logging.retire with ⟨f | u, l, out⟩ <;> rfl

/-- What setting up logging does: nothing while a console is attached and no force is used; a fault
of the settings; a fault in retiring the old console; or the new console. -/
theorem setup_cases (s : Session) (r : SetupRequest) :
    (s.logging.isAttached = true ∧ r.force = false ∧ s.setup r = ⟨.ok .done, s, .none⟩) ∨
      ¬ (s.logging.isAttached = true ∧ r.force = false) ∧
      ((∃ f settings, r.resolve s.settings = (.error f, settings) ∧
          s.setup r = ⟨.error f, { s with settings }, .none⟩) ∨
        ∃ level style settings, r.resolve s.settings = (.ok (level, style), settings) ∧
          ((∃ f logging out, s.logging.retire = (.error f, logging, out) ∧
              s.setup r = ⟨.error f, ⟨settings, logging⟩, out⟩) ∨
            ∃ logging out, s.logging.retire = (.ok (), logging, out) ∧
              s.setup r = ⟨.ok .done, ⟨settings, logging.install level style⟩, out⟩)) := by
  unfold setup
  by_cases hidle : s.logging.isAttached = true ∧ r.force = false
  · exact .inl ⟨hidle.1, hidle.2, if_pos (by simp [hidle])⟩
  · refine .inr ⟨hidle, ?_⟩
    rw [if_neg (by simpa using hidle)]
    rcases hres : r.resolve s.settings with ⟨f | ⟨level, style⟩, settings⟩
    · exact .inl ⟨f, settings, rfl, rfl⟩
    · refine .inr ⟨level, style, settings, rfl, ?_⟩
      rcases hret : s.logging.retire with ⟨f | u, logging, out⟩
      · exact .inl ⟨f, logging, out, rfl, rfl⟩
      · exact .inr ⟨logging, out, rfl, rfl⟩

theorem orderly_setup {s : Session} (h : s.logging.Orderly) (r : SetupRequest) :
    (s.setup r).session.logging.Orderly := by
  rcases s.setup_cases r with ⟨-, -, hs⟩ | ⟨-, ⟨f, settings, -, hs⟩ | ⟨level, style, settings, -,
    ⟨f, logging, out, hr, hs⟩ | ⟨logging, out, hr, hs⟩⟩⟩
  · rw [hs]
    exact h
  · rw [hs]
    exact h
  · rw [hs]
    exact h.of_retire hr
  · rw [hs]
    exact .install (Logging.retire_keeps h hr).2.2.1 level style

theorem orderly_step {s : Session} (h : s.logging.Orderly) (e : Step) :
    (s.step e).session.logging.Orderly := by
  cases e with
  | setup r => exact orderly_setup h r
  | addHost => exact h.addHost
  | removeHost number => exact h.removeHost number
  | restoreHost number => exact h.restoreHost number
  | detach => exact h.detach
  | setLevel level => exact h.setLevel level
  | breakClose r => exact h.breakClose r
  | _ => exact h

theorem orderly_run {s : Session} (h : s.logging.Orderly) (steps : List Step) :
    (s.run steps).logging.Orderly := by
  induction steps generalizing s with
  | nil => exact h
  | cons e steps ih => exact ih (orderly_step h e)

/-- What setting up does to the handlers: the host's stay, none of them is closed, and a console that
was not set up before stands behind them at the level that was asked for. -/
structure SetUp (s : Session) (r : SetupRequest) (l' : Logging) : Prop where
  hosts : l'.hostNumbers = s.logging.hostNumbers
  closed : ∀ n, Handler.host n ∈ l'.closed → Handler.host n ∈ s.logging.closed
  installed : ∀ c, l'.installed = some c → s.logging.installed ≠ some c →
    l'.handlers = s.logging.hostNumbers.map .host ++ [.console c] ∧ l'.level = c.level ∧
      (r.level.resolve s.settings).1 = .ok c.level

theorem setUp_of_logging_eq {s : Session} {r : SetupRequest} : s.SetUp r s.logging where
  hosts := rfl
  closed _ hn := hn
  installed _ hc hne := absurd hc hne

/-- The console that is installed after the old one is retired is a new one. -/
theorem setUp_install {s : Session} {r : SetupRequest} {level : Level} {style : Style}
    {settings : Settings} {l : Logging} {out : Output} (h : s.logging.Orderly)
    (hres : r.resolve s.settings = (.ok (level, style), settings))
    (hret : s.logging.retire = (.ok (), l, out)) :
    s.SetUp r (l.install level style) ∧
      ∃ c, (l.install level style).installed = some c ∧ s.logging.installed ≠ some c := by
  obtain ⟨hhosts, hcount, hnil, -, -⟩ := Logging.retire_keeps h hret
  refine ⟨⟨?_, ?_, ?_⟩, ⟨l.consoles, level, style⟩, rfl, ?_⟩
  · rw [Logging.hostNumbers_install, hhosts]
  · exact fun n hn => Logging.host_mem_closed_of_retire h hret hn
  · intro c hc _
    obtain rfl := Option.some.inj hc
    refine ⟨?_, rfl, SetupRequest.level_of_resolve hres⟩
    rw [← hhosts, ← Logging.handlers_of_attached_eq_nil hnil]
    rfl
  · -- the serial number of an older console lies below the count, which is that of the new one
    intro hold
    have hlt := h.serial _ hold
    rw [← hcount] at hlt
    exact Nat.lt_irrefl _ hlt

theorem setUp_setup {s : Session} (h : s.logging.Orderly) (r : SetupRequest) :
    s.SetUp r (s.setup r).session.logging := by
  rcases s.setup_cases r with ⟨-, -, hs⟩ | ⟨-, ⟨f, settings, -, hs⟩ | ⟨level, style, settings, hres,
    ⟨f, l, out, hr, hs⟩ | ⟨l, out, hr, hs⟩⟩⟩
  · rw [hs]
    exact setUp_of_logging_eq
  · rw [hs]
    exact setUp_of_logging_eq
  · rw [hs]
    obtain ⟨hhosts, -, -, hinstalled, -⟩ := Logging.retire_keeps h hr
    refine ⟨hhosts, fun n hn => Logging.host_mem_closed_of_retire h hr hn, fun c hc hne => ?_⟩
    change l.installed = some c at hc
    rcases hinstalled with hnone | hsame
    · rw [hnone] at hc
      cases hc
    · exact absurd (hsame ▸ hc) hne
  · rw [hs]
    exact (setUp_install h hres hr).1

/-- Setting up installs a new console unless one is attached or something fails. -/
theorem installs_of_reply {s : Session} {r : SetupRequest} (h : s.logging.Orderly)
    (hactive : s.logging.isAttached = false ∨ r.force = true)
    (hreply : (s.setup r).reply = .ok .done) :
    ∃ c, (s.setup r).session.logging.installed = some c ∧ s.logging.installed ≠ some c := by
  rcases s.setup_cases r with ⟨ha, hf, -⟩ | ⟨-, ⟨f, settings, -, hs⟩ | ⟨level, style, settings, hres,
    ⟨f, l, out, hr, hs⟩ | ⟨l, out, hr, hs⟩⟩⟩
  · simp [ha, hf] at hactive
  · rw [hs] at hreply
    cases hreply
  · rw [hs] at hreply
    cases hreply
  · rw [hs]
    exact (setUp_install h hres hr).2

/-- After any run from the start at most one console is attached, the one that was set up last. Then
setting up, whatever is asked for and whether it fails or not, leaves the host's handlers in
their order and closes none of them; if it succeeds without being idle it installs a new
console, and a new console always stands behind the host's handlers at the resolved level. -/
theorem run_initial_setup (settings : Settings) (steps : List Step) :
    let s := (Session.mk settings .initial).run steps
    (s.logging.attached = [] ∨ ∃ c, s.logging.installed = some c ∧ s.logging.attached = [c]) ∧
      ∀ r : SetupRequest, s.SetUp r (s.setup r).session.logging ∧
        ((s.logging.isAttached = false ∨ r.force = true) → (s.setup r).reply = .ok .done →
          ∃ c, (s.setup r).session.logging.installed = some c ∧
            s.logging.installed ≠ some c) := by
  have h : ((Session.mk settings .initial).run steps).logging.Orderly :=
    orderly_run Logging.orderly_initial steps
  exact ⟨h.attached, fun r => ⟨setUp_setup h r, installs_of_reply h⟩⟩

/-- A console between two host handlers is detached, and its closing will fail: the next one stands
behind both. -/
theorem setup_after_detach :
    let s := (Session.mk ⟨[], .absent, .absent, none, "/root"⟩ .initial).run
      [.addHost, .setup ⟨.given (.number 10), some true, false⟩, .addHost, .detach,
        .breakClose ⟨.system, "closed"⟩]
    let t := s.setup ⟨.given (.number 40), some false, false⟩
    ∃ c, t.session.logging.installed = some c ∧
      t.session.logging.handlers = [.host 0, .host 1, .console c] ∧
      t.session.logging.level = c.level ∧ c.level = .number 40 := by
  intro s t
  obtain ⟨hset, hnew⟩ := (run_initial_setup ⟨[], .absent, .absent, none, "/root"⟩
    [.addHost, .setup ⟨.given (.number 10), some true, false⟩, .addHost, .detach,
      .breakClose ⟨.system, "closed"⟩]).2 ⟨.given (.number 40), some false, false⟩
  obtain ⟨c, hc, hne⟩ := hnew (.inl rfl) rfl
  obtain ⟨hhandlers, hlevel, hresolved⟩ := hset.installed c hc hne
  have hnumbers : s.logging.hostNumbers = [0, 1] := rfl
  refine ⟨c, hc, ?_, hlevel, (Except.ok.inj hresolved).symm⟩
  rw [hhandlers, hnumbers]
  rfl

end Session

end Depict
