import Depict.Proofs.Logging.Setup

/-!
# Idle or new

While the console that was set up last receives messages, setting up without force does nothing,
whatever is asked for and whatever the settings are. In every other state it fails or installs a
console that is new: its number was given to none of those before it.
-/
namespace Depict

namespace Logging
variable {l l' : Logging} {c last : Console}

/-- The console that was set up last receives messages. -/
def Attached (l : Logging) : Prop :=
  ∃ c, l.installed = some c ∧ .console c ∈ l.handlers

theorem isAttached_iff : l.isAttached = true ↔ l.Attached := by
  unfold isAttached Attached
  cases hi : l.installed with
  | none => simp
  | some c => simp

/-- The console was set up last, or receives messages, or was closed. -/
def Knows (l : Logging) (c : Console) : Prop :=
  l.installed = some c ∨ .console c ∈ l.handlers ∨ .console c ∈ l.closed

theorem mem_handlers_of_detach {h : Handler} (hh : h ∈ l.detach.handlers) : h ∈ l.handlers := by
  unfold detach at hh
  split at hh
  · exact hh
  · exact List.mem_of_mem_erase hh

theorem knows_of_detach (h : l.detach.Knows c) : l.Knows c := by
  have hclosed : l.detach.closed = l.closed := by
    unfold detach
    split <;> rfl
  rw [Knows, installed_detach, hclosed] at h
  exact h.imp_right (.imp_left mem_handlers_of_detach)

theorem knows_of_closeInstalled (hlast : l.installed = some last)
    (h : (l.closeInstalled last).Knows c) : l.Knows c := by
  rcases h with hi | hh | hc
  · exact .inl (l.installed_detach ▸ hi)
  · exact .inr (.inl (mem_handlers_of_detach hh))
  · rcases List.mem_append.mp hc with hc | hc
    · exact .inr (.inr hc)
    · have hsame : c = last := by simpa using hc
      exact .inl (hsame ▸ hlast)

/-- Every console that is known got its number before the next one is given. -/
def Numbered (l : Logging) : Prop :=
  ∀ c, l.Knows c → c.serial < l.consoles

namespace Numbered

theorem of_knows (h : l.Numbered) (hknows : ∀ c, l'.Knows c → l.Knows c)
    (hcount : l'.consoles = l.consoles) : l'.Numbered := by
  intro c hc
  rw [hcount]
  exact h c (hknows c hc)

theorem initial : Logging.initial.Numbered := by
  rintro c (hc | hc | hc) <;> cases hc

theorem detach (h : l.Numbered) : l.detach.Numbered :=
  h.of_knows (fun _ => knows_of_detach) l.consoles_detach

theorem closeInstalled (h : l.Numbered) (hlast : l.installed = some last) :
    (l.closeInstalled last).Numbered :=
  h.of_knows (fun _ => knows_of_closeInstalled hlast) l.consoles_detach

/-- Retiring the console brings up no other one. -/
theorem retire (h : l.Numbered) {x : Except Fault Unit} {out : Output}
    (hr : l.retire = (x, l', out)) : l'.Numbered := by
  rcases l.retire_cases with ⟨-, hn⟩ | ⟨last, hlast, ⟨o, -, ho⟩ | ⟨r, -, -, ho⟩⟩
  · obtain rfl : l = l' := by simpa using congrArg (·.2.1) (hn.symm.trans hr)
    exact h
  · have hl' : { l.closeInstalled last with installed := none, obstacle := none } = l' := by
      simpa using congrArg (·.2.1) (ho.symm.trans hr)
    subst hl'
    refine (h.closeInstalled hlast).of_knows (fun c hc => ?_) rfl
    rcases hc with hc | hc
    · cases hc
    · exact .inr hc
  · have hl' : l.closeInstalled last = l' := by simpa using congrArg (·.2.1) (ho.symm.trans hr)
    subst hl'
    exact h.closeInstalled hlast

/-- A console that is installed gets the next number. -/
theorem install (h : l.Numbered) (level : Level) (style : Style) :
    (l.install level style).Numbered := by
  rintro c (hc | hc | hc)
  · rw [← Option.some.inj hc]
    exact Nat.lt_succ_self _
  · rcases List.mem_append.mp hc with hc | hc
    · exact Nat.lt_succ_of_lt (h c (.inr (.inl hc)))
    · have hnew : c = ⟨l.consoles, level, style⟩ := by simpa using hc
      rw [hnew]
      exact Nat.lt_succ_self _
  · exact Nat.lt_succ_of_lt (h c (.inr (.inr hc)))

theorem addHost (h : l.Numbered) : l.addHost.Numbered := by
  refine h.of_knows (fun c hc => ?_) rfl
  simpa [Knows, Logging.addHost] using hc

theorem removeHost (h : l.Numbered) (number : Nat) : (l.removeHost number).Numbered := by
  refine h.of_knows (fun c hc => ?_) rfl
  exact hc.imp_right (.imp_left List.mem_of_mem_erase)

theorem restoreHost (h : l.Numbered) (number : Nat) : (l.restoreHost number).Numbered := by
  unfold Logging.restoreHost
  split
  · refine h.of_knows (fun c hc => ?_) rfl
    simpa [Knows] using hc
  · exact h

theorem breakClose (h : l.Numbered) (r : Raised) : (l.breakClose r).Numbered := by
  unfold Logging.breakClose
  split
  · exact h
  · exact h

end Numbered

end Logging

namespace Session
variable {s : Session}

theorem numbered_setup (h : s.logging.Numbered) (r : SetupRequest) :
    (s.setup r).session.logging.Numbered := by
  rcases s.setup_cases r with ⟨-, -, hs⟩ | ⟨-, ⟨f, settings, -, hs⟩ | ⟨level, style, settings, -,
    ⟨f, logging, out, hr, hs⟩ | ⟨logging, out, hr, hs⟩⟩⟩
  · rw [hs]
    exact h
  · rw [hs]
    exact h
  · rw [hs]
    exact h.retire hr
  · rw [hs]
    exact (h.retire hr).install level style

theorem numbered_step (h : s.logging.Numbered) (e : Step) :
    (s.step e).session.logging.Numbered := by
  cases e with
  | setup r => exact numbered_setup h r
  | addHost => exact h.addHost
  | removeHost number => exact h.removeHost number
  | restoreHost number => exact h.restoreHost number
  | detach => exact h.detach
  | breakClose r => exact h.breakClose r
  | _ => exact h

theorem numbered_run (h : s.logging.Numbered) (steps : List Step) :
    (s.run steps).logging.Numbered := by
  induction steps generalizing s with
  | nil => exact h
  | cons e steps ih => exact ih (numbered_step h e)

theorem setup_of_attached {r : SetupRequest} (h : s.logging.Attached) (hforce : r.force = false) :
    s.setup r = ⟨.ok .done, s, .none⟩ :=
  if_pos (by simp [Logging.isAttached_iff.mpr h, hforce])

/-- Setting up that is not idle fails or leaves a console attached that nothing knew before. -/
theorem setup_of_active (h : s.logging.Orderly) (hn : s.logging.Numbered) {r : SetupRequest}
    (hactive : ¬ s.logging.Attached ∨ r.force = true) :
    (∃ f, (s.setup r).reply = .error f) ∨
      (s.setup r).reply = .ok .done ∧ (s.setup r).session.logging.Attached ∧
        ∀ c, (s.setup r).session.logging.installed = some c → ¬ s.logging.Knows c := by
  rcases s.setup_cases r with ⟨ha, hf, -⟩ | ⟨-, ⟨f, settings, -, hs⟩ | ⟨level, style, settings, -,
    ⟨f, logging, out, hr, hs⟩ | ⟨logging, out, hr, hs⟩⟩⟩
  · simp [← Logging.isAttached_iff, ha, hf] at hactive
  · rw [hs]
    exact .inl ⟨f, rfl⟩
  · rw [hs]
    exact .inl ⟨f, rfl⟩
  · rw [hs]
    refine .inr ⟨rfl, ⟨_, rfl, List.mem_append_right _ List.mem_cons_self⟩, fun c hc hknown => ?_⟩
    obtain ⟨-, hcount, -⟩ := Logging.retire_keeps h hr
    have hserial : s.logging.consoles = c.serial := by rw [← Option.some.inj hc, ← hcount]
    exact Nat.lt_irrefl _ (hserial ▸ hn c hknown)

/-- After any run, in any settings and for any wish: without force setting up does nothing while the
console that was set up last is attached, and the settings are left as they are. If none was set up,
or it was detached, or with force, setting up fails or leaves a console attached that is none of those
before it. What follows a success without force does nothing. -/
theorem setup_idle_or_new (started settings : Settings) (steps : List Step) (r : SetupRequest) :
    let l := ((Session.mk started .initial).run steps).logging
    let t := (Session.mk settings l).setup r
    (l.Attached → r.force = false → t = ⟨.ok .done, ⟨settings, l⟩, .none⟩) ∧
    (¬ l.Attached ∨ r.force = true →
      (∃ f, t.reply = .error f) ∨
      t.reply = .ok .done ∧ t.session.logging.Attached ∧
        ∀ c, t.session.logging.installed = some c → ¬ l.Knows c) ∧
    (t.reply = .ok .done → ∀ again : SetupRequest, again.force = false →
      t.session.setup again = ⟨.ok .done, t.session, .none⟩) := by
  intro l t
  have horder : l.Orderly := orderly_run Logging.orderly_initial steps
  have hnumbered : l.Numbered := numbered_run Logging.Numbered.initial steps
  have hidle : l.Attached → r.force = false → t = ⟨.ok .done, ⟨settings, l⟩, .none⟩ :=
    setup_of_attached (s := ⟨settings, l⟩)
  have hactive := setup_of_active (s := ⟨settings, l⟩) (r := r) horder hnumbered
  refine ⟨hidle, hactive, fun hreply again hagain => ?_⟩
  apply setup_of_attached _ hagain
  by_cases hi : l.Attached ∧ r.force = false
  · rw [hidle hi.1 hi.2]
    exact hi.1
  · have hneeded : ¬ l.Attached ∨ r.force = true := by
      rw [not_and_or] at hi
      exact hi.imp_right fun hforce => by simpa using hforce
    rcases hactive hneeded with ⟨f, hf⟩ | ⟨-, hattached, -⟩
    · exact absurd (hf.symm.trans hreply) nofun
    · exact hattached

/-- A directory in place of the working file and a word that is no truth value. -/
def unusable : Settings :=
  ⟨[("OBJTOOLS_LOG_USER_FRIENDLY", "maybe")], .directory, .absent, none, "/root"⟩

/-- A console was set up; the host detached it, or only added a handler. -/
theorem setup_idle_or_new_unusable :
    let first : SetupRequest := ⟨.given (.number 10), some true, false⟩
    let bad : SetupRequest := ⟨.unsuited "'float' object", none, false⟩
    let kept := ((Session.mk unusable .initial).run [.setup first, .addHost]).logging
    let gone := ((Session.mk unusable .initial).run [.setup first, .detach]).logging
    let t := (Session.mk unusable gone).setup first
    (Session.mk unusable kept).setup bad = ⟨.ok .done, ⟨unusable, kept⟩, .none⟩ ∧
      (Session.mk unusable gone).setup bad =
        ⟨.error (.notTrimmable "'float' object"), ⟨unusable, gone⟩, .none⟩ ∧
      (∀ c, t.session.logging.installed = some c → ¬ gone.Knows c) ∧
      t.session.setup bad = ⟨.ok .done, t.session, .none⟩ := by
  intro first bad kept gone t
  have hkept : kept.Attached := Logging.isAttached_iff.mp rfl
  have hgone : ¬ gone.Attached := mt Logging.isAttached_iff.mpr (by decide)
  obtain ⟨hidle, -, -⟩ := setup_idle_or_new unusable unusable [.setup first, .addHost] bad
  obtain ⟨-, hnew, hagain⟩ := setup_idle_or_new unusable unusable [.setup first, .detach] first
  refine ⟨hidle hkept rfl, rfl, ?_, hagain rfl bad rfl⟩
  rcases hnew (.inl hgone) with ⟨f, hf⟩ | ⟨-, -, hfresh⟩
  · cases hf
  · exact hfresh

end Session

end Depict
