import GatewayControl.Tunnel.Namespace
import Mathlib.Data.List.Basic
import Mathlib.Logic.Function.Basic

/-!
# `GatewayControl.Proofs.Tunnel.NamespaceFaults` -- a device in a namespace, on a machine where commands fail

`FaultyHost` is a machine on which each command takes its effect and succeeds, or fails without one, as an
arbitrary stream of outcomes has it. All that a request does to it is to run commands (`FaultyHost.logged`),
so a request is described by the commands that it ran and how each ended. `runAll_cases` describes a list of
commands, `setup_cases` a setup: it carries everything out, or stops at a leftover that cannot be removed,
or stops later and deletes the namespace again.

All these commands are about the namespace and the link of the device (`NamespaceDevice.Owns`). So whatever
went wrong before, the machine is the one at the start but for these two, and a setup that gets through
makes of it what it would have made of a clean one (`setup_under_faults`).
-/

namespace GatewayControl

/-! ## A machine on which commands fail -/

/-- The command has ended without a fault. -/
def Outcome.isSuccess : Outcome → Bool
  | exited 0 _ => true
  | _ => false

theorem Outcome.result_of_success {o : Outcome} (h : o.isSuccess = true) (c : Command) : o.result c = .ok () := by
  cases o with
  | exited status errors =>
    cases status with
    | zero => rfl
    | succ n => cases h
  | killed signal errors => cases h
  | notFound => cases h

theorem Outcome.result_of_failure {o : Outcome} (h : o.isSuccess = false) (c : Command) :
    ∃ e, o.result c = .error e := by
  cases o with
  | exited status errors =>
    cases status with
    | zero => cases h
    | succ n => exact ⟨_, rfl⟩
  | killed signal errors => exact ⟨_, rfl⟩
  | notFound => exact ⟨_, rfl⟩

/-- The network of a machine: for each namespace the commands that were carried out in it since it was
added, which say all about it, and the links outside of all namespaces. -/
@[ext]
structure Network where
  inside : String → Option (List Command)
  links : String → Bool

namespace Network

/-- What a command does that succeeds. -/
def after (c : Command) (w : Network) : Network :=
  match c.args with
  | ["netns", "add", ns] => { w with inside := Function.update w.inside ns (some []) }
  | ["netns", "delete", ns] => { w with inside := Function.update w.inside ns none }
  | ["link", "del", "dev", link] => { w with links := Function.update w.links link false }
  | "-n" :: ns :: _ | "netns" :: "exec" :: ns :: _ =>
    { w with inside := Function.update w.inside ns ((w.inside ns).map (· ++ [c])) }
  | _ => w

/-- What a command does that ended this way. -/
def record (w : Network) (entry : Command × Outcome) : Network :=
  if entry.2.isSuccess = true then w.after entry.1 else w

/-- The network without the namespace of a device and without a link of its name. -/
def without (d : NamespaceDevice) (w : Network) : Network :=
  ⟨Function.update w.inside d.namespaceName none, Function.update w.links d.interface false⟩

/-- The network with a device that was set up, and without a link of its name outside. -/
def withDevice (d : NamespaceDevice) (config : DeviceSetup) (w : Network) : Network :=
  ⟨Function.update w.inside d.namespaceName (some (d.setupCommands config).tail),
    Function.update w.links d.interface false⟩

end Network

/-- A machine on which commands may fail: its network at the start, how the first command will end and the
second and so on, and the commands that were run, each with how it ended. -/
structure FaultyHost where
  start : Network
  outcomes : Nat → Outcome
  log : List (Command × Outcome)

namespace FaultyHost

/-- The network now. -/
def network (m : FaultyHost) : Network := m.log.foldl Network.record m.start

/-- The machine after some more commands. -/
def logged (ran : List (Command × Outcome)) (m : FaultyHost) : FaultyHost := { m with log := m.log ++ ran }

instance : Host FaultyHost where
  hasNamespace name m := (m.network.inside name).isSome
  hasLink name m := m.network.links name
  run c m := (m.outcomes m.log.length, m.logged [(c, m.outcomes m.log.length)])

theorem logged_nil (m : FaultyHost) : m.logged [] = m := by
  unfold logged
  rw [List.append_nil]

theorem logged_logged (ran more : List (Command × Outcome)) (m : FaultyHost) :
    (m.logged ran).logged more = m.logged (ran ++ more) := by
  unfold logged
  rw [List.append_assoc]

theorem network_logged (ran : List (Command × Outcome)) (m : FaultyHost) :
    (m.logged ran).network = ran.foldl Network.record m.network := List.foldl_append

end FaultyHost

/-! ## Lists of commands -/

/-- All commands were run in this order and succeeded. -/
def Succeeded (commands : List Command) (ran : List (Command × Outcome)) : Prop :=
  ran.map Prod.fst = commands ∧ ∀ entry ∈ ran, entry.2.isSuccess = true

/-- The commands were run in this order up to one that failed. -/
def StoppedAt (commands : List Command) (ran : List (Command × Outcome)) (c : Command) (o : Outcome) : Prop :=
  ∃ before rest done, commands = before ++ c :: rest ∧ ran = done ++ [(c, o)] ∧ Succeeded before done ∧
    o.isSuccess = false

section Lists

variable {commands more : List Command} {ran done : List (Command × Outcome)} {c : Command} {o : Outcome}

theorem succeeded_nil : Succeeded [] [] := ⟨rfl, fun _ h => absurd h List.not_mem_nil⟩

theorem Succeeded.cons (ho : o.isSuccess = true) (h : Succeeded commands ran) :
    Succeeded (c :: commands) ((c, o) :: ran) :=
  ⟨congrArg (c :: ·) h.1, List.forall_mem_cons.2 ⟨ho, h.2⟩⟩

theorem Succeeded.append (h : Succeeded commands ran) (h' : Succeeded more done) :
    Succeeded (commands ++ more) (ran ++ done) := by
  refine ⟨?_, List.forall_mem_append.2 ⟨h.2, h'.2⟩⟩
  rw [List.map_append, h.1, h'.1]

/-- Commands that succeeded took effect one after the other. -/
theorem Succeeded.foldl_record (h : Succeeded commands ran) (w : Network) :
    ran.foldl Network.record w = commands.foldl (fun w c => w.after c) w := by
  obtain ⟨rfl, hall⟩ := h
  rw [List.foldl_map]
  refine List.foldl_ext _ _ w fun w entry hentry => ?_
  exact if_pos (hall entry hentry)

theorem StoppedAt.mem_ran (h : StoppedAt commands ran c o) : (c, o) ∈ ran ∧ o.isSuccess = false := by
  obtain ⟨before, rest, done, -, rfl, -, ho⟩ := h
  exact ⟨List.mem_append_right done (List.mem_singleton.2 rfl), ho⟩

theorem Succeeded.mem (h : Succeeded commands ran) {entry : Command × Outcome} (hentry : entry ∈ ran) :
    entry.1 ∈ commands := by
  rw [← h.1]
  exact List.mem_map_of_mem hentry

theorem StoppedAt.mem (h : StoppedAt commands ran c o) {entry : Command × Outcome} (hentry : entry ∈ ran) :
    entry.1 ∈ commands := by
  obtain ⟨before, rest, done, rfl, rfl, hdone, -⟩ := h
  rcases List.mem_append.1 hentry with hin | hin
  · exact List.mem_append_left _ (hdone.mem hin)
  · rw [List.mem_singleton.1 hin]
    exact List.mem_append_right _ List.mem_cons_self

end Lists

namespace NamespaceDevice

variable (d : NamespaceDevice) {config : DeviceSetup} {m : FaultyHost}

/-- One command is run, and the next outcome is its result. -/
theorem exists_run (c : Command) (m : FaultyHost) :
    ∃ o : Outcome, run c m = (o.result c, m.logged [(c, o)]) := ⟨_, rfl⟩

/-- **A list of commands** is run to its end, or stops with the fault of the first that fails. -/
theorem runAll_cases (commands : List Command) (m : FaultyHost) : ∃ ran,
    runAll commands m = (.ok (), m.logged ran) ∧ Succeeded commands ran ∨
    ∃ c o, runAll commands m = (o.result c, m.logged ran) ∧ StoppedAt commands ran c o := by
  induction commands generalizing m with
  | nil => exact ⟨[], .inl ⟨by rw [FaultyHost.logged_nil]; rfl, succeeded_nil⟩⟩
  | cons c rest ih =>
    obtain ⟨o, hrun⟩ := exists_run c m
    unfold runAll
    rw [hrun]
    cases ho : o.isSuccess with
    | false =>
      obtain ⟨e, he⟩ := Outcome.result_of_failure ho c
      refine ⟨[(c, o)], .inr ⟨c, o, ?_, [], rest, [], rfl, rfl, succeeded_nil, ho⟩⟩
      rw [he]
    | true =>
      rw [Outcome.result_of_success ho c]
      obtain ⟨ran, ⟨hall, hran⟩ | ⟨c', o', hstop, before, after, done, rfl, rfl, hdone, ho'⟩⟩ :=
        ih (m.logged [(c, o)])
      · refine ⟨(c, o) :: ran, .inl ⟨?_, hran.cons ho⟩⟩
        dsimp only
        rw [hall, FaultyHost.logged_logged, List.singleton_append]
      · refine ⟨(c, o) :: (done ++ [(c', o')]), .inr ⟨c', o', ?_, c :: before, after, (c, o) :: done, rfl, rfl,
          hdone.cons ho, ho'⟩⟩
        dsimp only
        rw [hstop, FaultyHost.logged_logged, List.singleton_append]

/-! ## Commands of the device -/

/-- The command leaves alone all but the namespace and the link of the device. -/
def Owns (c : Command) : Prop := ∀ w : Network, (w.after c).without d = w.without d

theorem owns_of_inside {c : Command} (h : ∀ w : Network, ∃ content,
    w.after c = { w with inside := Function.update w.inside d.namespaceName content }) : d.Owns c := by
  intro w
  obtain ⟨content, hafter⟩ := h w
  rw [hafter]
  unfold Network.without
  rw [Function.update_idem]

theorem owns_deleteCommand : d.Owns d.deleteCommand := d.owns_of_inside fun _ => ⟨none, rfl⟩

theorem owns_cleanupCommands (left : Leftovers) : ∀ c ∈ d.cleanupCommands left, d.Owns c := by
  intro c hc
  unfold cleanupCommands at hc
  rcases List.mem_append.1 hc with hlink | hns
  · split at hlink
    · obtain rfl := List.mem_singleton.1 hlink
      intro w
      change Network.mk _ (Function.update (Function.update w.links d.interface false) d.interface false) = _
      rw [Function.update_idem]
      rfl
    · cases hlink
  · split at hns
    · obtain rfl := List.mem_singleton.1 hns
      exact d.owns_deleteCommand
    · cases hns

theorem owns_setupCommands (config : DeviceSetup) : ∀ c ∈ d.setupCommands config, d.Owns c := by
  simp only [setupCommands, List.forall_mem_cons]
  refine ⟨?_, ?_, ?_, ?_, ?_, ?_, ?_, fun _ h => absurd h List.not_mem_nil⟩ <;>
    exact d.owns_of_inside fun _ => ⟨_, rfl⟩

/-- What only the device's own commands were done to is the same without the device. -/
theorem without_foldl_record {ran : List (Command × Outcome)} (h : ∀ entry ∈ ran, d.Owns entry.1)
    (w : Network) : (ran.foldl Network.record w).without d = w.without d := by
  induction ran generalizing w with
  | nil => rfl
  | cons entry rest ih =>
    obtain ⟨hentry, hrest⟩ := List.forall_mem_cons.1 h
    rw [List.foldl_cons, ih hrest]
    unfold Network.record
    split
    · exact hentry w
    · rfl

/-- The cleanup leaves nothing of the device. -/
theorem foldl_cleanupCommands (m : FaultyHost) :
    (d.cleanupCommands (d.leftovers m)).foldl (fun w c => w.after c) m.network = m.network.without d := by
  have hlink : (if Host.hasLink d.interface m then [Command.ip ["link", "del", "dev", d.interface]] else
      []).foldl (fun w c => w.after c) m.network =
        { m.network with links := Function.update m.network.links d.interface false } := by
    split
    · rfl
    · next h =>
      have habsent : m.network.links d.interface = false := Bool.eq_false_iff.2 h
      rw [← habsent, Function.update_eq_self]
      rfl
  unfold cleanupCommands leftovers
  rw [List.foldl_append, hlink]
  dsimp only
  split
  · rfl
  · next h =>
    have habsent : m.network.inside d.namespaceName = none :=
      Option.not_isSome_iff_eq_none.1 h
    unfold Network.without
    rw [← habsent, Function.update_eq_self]
    rfl

/-- All commands of a setup make the device of the clean network. -/
theorem foldl_setupCommands (config : DeviceSetup) (w : Network) :
    (d.setupCommands config).foldl (fun w c => w.after c) (w.without d) = w.withDevice d config := by
  refine Network.ext ?_ rfl
  simp only [setupCommands, Command.ip, List.foldl_cons, List.foldl_nil, Network.after, Network.without,
    Network.withDevice, Function.update_idem, Function.update_self, Option.map_some, List.tail_cons,
    List.nil_append, List.cons_append]

/-! ## Requests -/

/-- **A teardown** deletes the namespace if there is one. -/
theorem teardown_cases (m : FaultyHost) :
    d.teardown m = (.ok (), m) ∧ Host.hasNamespace d.namespaceName m = false ∨
      ∃ o : Outcome, d.teardown m = (o.result d.deleteCommand, m.logged [(d.deleteCommand, o)]) := by
  unfold teardown
  split
  · exact .inr (exists_run d.deleteCommand m)
  · next h => exact .inl ⟨rfl, Bool.eq_false_iff.2 h⟩

theorem hasNamespace_deleted {o : Outcome} (ho : o.isSuccess = true) (m : FaultyHost) :
    Host.hasNamespace d.namespaceName (m.logged [(d.deleteCommand, o)]) = false := by
  change ((m.logged [(d.deleteCommand, o)]).network.inside d.namespaceName).isSome = false
  rw [FaultyHost.network_logged, List.foldl_cons, List.foldl_nil, Network.record, if_pos ho]
  change (Function.update m.network.inside d.namespaceName none d.namespaceName).isSome = false
  rw [Function.update_self]
  rfl

/-- The commands that take a failed setup back: the namespace is deleted if it is there, and is gone then
unless that fails. -/
structure RolledBack (m : FaultyHost) (undone : List (Command × Outcome)) : Prop where
  commands : undone = [] ∨ ∃ o, undone = [(d.deleteCommand, o)]
  gone : Host.hasNamespace d.namespaceName m = false ∨ ∃ o, undone = [(d.deleteCommand, o)] ∧ o.isSuccess = false

theorem exists_rolledBack (m : FaultyHost) :
    ∃ undone, (d.teardown m).2 = m.logged undone ∧ d.RolledBack (m.logged undone) undone := by
  rcases d.teardown_cases m with ⟨hrun, hgone⟩ | ⟨o, hrun⟩
  · refine ⟨[], by rw [hrun, FaultyHost.logged_nil], .inl rfl, .inl ?_⟩
    rw [FaultyHost.logged_nil]
    exact hgone
  · refine ⟨[(d.deleteCommand, o)], by rw [hrun], .inr ⟨o, rfl⟩, ?_⟩
    cases ho : o.isSuccess with
    | true => exact .inl (d.hasNamespace_deleted ho m)
    | false => exact .inr ⟨o, rfl, ho⟩

/-- **A setup** carries all its commands out, or stops at a leftover that cannot be removed, or stops later
and takes back what it has done; the fault of the command at which it stopped is its own. -/
theorem setup_cases (config : DeviceSetup) (m : FaultyHost) : ∃ ran,
    (d.setup config m).2 = m.logged ran ∧
    ((d.setup config m).1 = .ok () ∧
        Succeeded (d.cleanupCommands (d.leftovers m) ++ d.setupCommands config) ran ∨
      (∃ c o, (d.setup config m).1 = o.result c ∧ StoppedAt (d.cleanupCommands (d.leftovers m)) ran c o) ∨
      ∃ cleaned tried undone c o, (d.setup config m).1 = o.result c ∧ ran = cleaned ++ tried ++ undone ∧
        Succeeded (d.cleanupCommands (d.leftovers m)) cleaned ∧
        StoppedAt (d.setupCommands config) tried c o ∧ d.RolledBack (m.logged ran) undone) := by
  unfold setup
  obtain ⟨cleaned, ⟨hclean, hcleaned⟩ | ⟨c, o, hclean, hstop⟩⟩ :=
    runAll_cases (d.cleanupCommands (d.leftovers m)) m
  · rw [hclean]
    dsimp only
    obtain ⟨tried, ⟨hcreate, htried⟩ | ⟨c, o, hcreate, hstop⟩⟩ :=
      runAll_cases (d.setupCommands config) (m.logged cleaned)
    · rw [hcreate, FaultyHost.logged_logged]
      exact ⟨_, rfl, .inl ⟨rfl, hcleaned.append htried⟩⟩
    · obtain ⟨e, he⟩ := Outcome.result_of_failure hstop.mem_ran.2 c
      obtain ⟨undone, hundo, hback⟩ := d.exists_rolledBack (m.logged (cleaned ++ tried))
      rw [hcreate, FaultyHost.logged_logged, he]
      dsimp only
      rw [hundo]
      rw [FaultyHost.logged_logged] at hback ⊢
      exact ⟨_, rfl, .inr (.inr ⟨cleaned, tried, undone, c, o, he.symm, rfl, hcleaned, hstop, hback⟩)⟩
  · obtain ⟨e, he⟩ := Outcome.result_of_failure hstop.mem_ran.2 c
    rw [hclean, he]
    exact ⟨cleaned, rfl, .inr (.inl ⟨c, o, he.symm, hstop⟩)⟩

/-- A setup all of whose commands succeeded makes the device of the clean network. -/
theorem network_of_succeeded {ran : List (Command × Outcome)}
    (h : Succeeded (d.cleanupCommands (d.leftovers m) ++ d.setupCommands config) ran) :
    (m.logged ran).network = m.network.withDevice d config := by
  rw [FaultyHost.network_logged, h.foldl_record, List.foldl_append, foldl_cleanupCommands,
    foldl_setupCommands]

/-- The commands of every request are about the device. -/
theorem owns_step (call : DeviceCall) (m : FaultyHost) :
    ∃ ran, (d.step call m).2 = m.logged ran ∧ ∀ entry ∈ ran, d.Owns entry.1 := by
  cases call with
  | setup config =>
    obtain ⟨ran, hrun, hran⟩ := d.setup_cases config m
    refine ⟨ran, hrun, fun entry hentry => ?_⟩
    rcases hran with ⟨-, hall⟩ | ⟨c, o, -, hstop⟩ | ⟨cleaned, tried, undone, c, o, -, rfl, hclean, hstop, hback⟩
    · rcases List.mem_append.1 (hall.mem hentry) with hin | hin
      · exact d.owns_cleanupCommands _ _ hin
      · exact d.owns_setupCommands _ _ hin
    · exact d.owns_cleanupCommands _ _ (hstop.mem hentry)
    · rcases List.mem_append.1 hentry with hin | hin
      · rcases List.mem_append.1 hin with hin | hin
        · exact d.owns_cleanupCommands _ _ (hclean.mem hin)
        · exact d.owns_setupCommands _ _ (hstop.mem hin)
      · rcases hback.commands with rfl | ⟨o', rfl⟩
        · cases hin
        · rw [List.mem_singleton.1 hin]
          exact d.owns_deleteCommand
  | upsert peer =>
    obtain ⟨o, hrun⟩ := exists_run (d.upsertCommand peer) m
    refine ⟨[(d.upsertCommand peer, o)], congrArg Prod.snd hrun, List.forall_mem_singleton.2 ?_⟩
    exact d.owns_of_inside fun _ => ⟨_, rfl⟩
  | remove key =>
    obtain ⟨o, hrun⟩ := exists_run (d.removeCommand key) m
    refine ⟨[(d.removeCommand key, o)], congrArg Prod.snd hrun, List.forall_mem_singleton.2 ?_⟩
    exact d.owns_of_inside fun _ => ⟨_, rfl⟩
  | teardown =>
    rcases d.teardown_cases m with ⟨hrun, -⟩ | ⟨o, hrun⟩
    · exact ⟨[], by rw [FaultyHost.logged_nil]; exact congrArg Prod.snd hrun, fun _ h => absurd h List.not_mem_nil⟩
    · exact ⟨_, congrArg Prod.snd hrun, List.forall_mem_singleton.2 d.owns_deleteCommand⟩

/-- The machine after some requests. -/
def requests (calls : List DeviceCall) (m : FaultyHost) : FaultyHost :=
  calls.foldl (fun m call => (d.step call m).2) m

/-- **Whatever happens to the device**, the rest of the network stays as it is. -/
theorem without_requests (calls : List DeviceCall) (m : FaultyHost) :
    (d.requests calls m).network.without d = m.network.without d := by
  induction calls generalizing m with
  | nil => rfl
  | cons call rest ih =>
    obtain ⟨ran, hrun, howns⟩ := d.owns_step call m
    refine (ih (d.step call m).2).trans ?_
    rw [hrun, FaultyHost.network_logged]
    exact d.without_foldl_record howns m.network

theorem withDevice_congr {w w' : Network} (h : w.without d = w'.without d) (config : DeviceSetup) :
    w.withDevice d config = w'.withDevice d config := by
  rw [← foldl_setupCommands, h, foldl_setupCommands]

/-- A setup succeeds if none of its commands fails. -/
theorem setup_eq_ok_iff {ran : List (Command × Outcome)} (hrun : (d.setup config m).2 = m.logged ran) :
    ((d.setup config m).1 = .ok () ↔
        Succeeded (d.cleanupCommands (d.leftovers m) ++ d.setupCommands config) ran) ∧
      ((d.setup config m).1 = .ok () ↔ ∀ entry ∈ ran, entry.2.isSuccess = true) := by
  obtain ⟨ran', hrun', hran⟩ := d.setup_cases config m
  obtain rfl : ran' = ran := by
    rw [hrun] at hrun'
    exact (List.append_cancel_left (congrArg FaultyHost.log hrun')).symm
  -- a run that stops has a command that failed, and its fault as its result
  have hstopped : ∀ {commands tried c o}, StoppedAt commands tried c o → tried ⊆ ran' →
      (d.setup config m).1 = o.result c → (d.setup config m).1 ≠ .ok () ∧
        ¬ ∀ entry ∈ ran', entry.2.isSuccess = true := by
    intro commands tried c o hstop hsub hresult
    obtain ⟨hin, ho⟩ := hstop.mem_ran
    obtain ⟨e, he⟩ := Outcome.result_of_failure ho c
    refine ⟨fun hok => ?_, fun hall => ?_⟩
    · rw [hresult, he] at hok
      cases hok
    · have hsuccess : o.isSuccess = true := hall _ (hsub hin)
      rw [ho] at hsuccess
      cases hsuccess
  rcases hran with ⟨hok, hall⟩ | ⟨c, o, hresult, hstop⟩ |
    ⟨cleaned, tried, undone, c, o, hresult, hsplit, -, hstop, -⟩
  · exact ⟨iff_of_true hok hall, iff_of_true hok hall.2⟩
  · obtain ⟨hfails, hnot⟩ := hstopped hstop (List.Subset.refl _) hresult
    exact ⟨iff_of_false hfails fun hall => hnot hall.2, iff_of_false hfails hnot⟩
  · have hsub : tried ⊆ ran' := by
      rw [hsplit]
      exact List.subset_append_of_subset_left _ (List.subset_append_right _ _)
    obtain ⟨hfails, hnot⟩ := hstopped hstop hsub hresult
    exact ⟨iff_of_false hfails fun hall => hnot hall.2, iff_of_false hfails hnot⟩

/-- The teardown of a device that is set up deletes its namespace, and leaves the clean network. -/
theorem teardown_of_network {w : Network} (h : m.network = w.withDevice d config) : ∃ o : Outcome,
    d.teardown m = (o.result d.deleteCommand, m.logged [(d.deleteCommand, o)]) ∧
      (o.isSuccess = true → (m.logged [(d.deleteCommand, o)]).network = w.without d) := by
  rcases d.teardown_cases m with ⟨-, hgone⟩ | ⟨o, hrun⟩
  · change (m.network.inside d.namespaceName).isSome = false at hgone
    rw [h] at hgone
    unfold Network.withDevice at hgone
    dsimp only at hgone
    rw [Function.update_self] at hgone
    cases hgone
  · refine ⟨o, hrun, fun ho => ?_⟩
    rw [FaultyHost.network_logged, h, List.foldl_cons, List.foldl_nil, Network.record, if_pos ho]
    refine Network.ext ?_ rfl
    exact Function.update_idem _ _ _

/-- **A setup on a machine where commands fail.** Take any machine, any requests that were made to the device
there, and any way in which commands end. A setup then succeeds exactly if the commands that remove what is
there of the device and then all seven commands of a setup ran in this order and succeeded. Otherwise a
command of the cleanup failed, and nothing ran after it; or a later command failed, and nothing ran after it
but the deletion of the namespace, and the namespace is gone unless that failed. In both cases the fault is
that of the command that failed first. A setup none of whose commands fails makes of the network what it
makes of one that was clean from the start, and a teardown whose command succeeds makes it clean. -/
theorem setup_under_faults (config : DeviceSetup) (calls : List DeviceCall) (start : FaultyHost) :
    let m := d.requests calls start
    let cleanup := d.cleanupCommands (d.leftovers m)
    ∃ ran, (d.setup config m).2 = m.logged ran ∧
      ((d.setup config m).1 = .ok () ↔ Succeeded (cleanup ++ d.setupCommands config) ran) ∧
      ((d.setup config m).1 = .ok () ∨
        (∃ c o, (d.setup config m).1 = o.result c ∧ StoppedAt cleanup ran c o) ∨
        ∃ cleaned tried undone c o, (d.setup config m).1 = o.result c ∧ ran = cleaned ++ tried ++ undone ∧
          Succeeded cleanup cleaned ∧ StoppedAt (d.setupCommands config) tried c o ∧
          d.RolledBack (m.logged ran) undone) ∧
      ((∀ entry ∈ ran, entry.2.isSuccess = true) → (d.setup config m).1 = .ok () ∧
        (∀ clean : FaultyHost, clean.network = start.network.without d → (d.setup config clean).1 = .ok () →
          (m.logged ran).network = (d.setup config clean).2.network) ∧
        ∃ o : Outcome, d.teardown (m.logged ran) =
            (o.result d.deleteCommand, (m.logged ran).logged [(d.deleteCommand, o)]) ∧
          (o.isSuccess = true → ((m.logged ran).logged [(d.deleteCommand, o)]).network =
            start.network.without d)) := by
  intro m cleanup
  obtain ⟨ran, hrun, hran⟩ := d.setup_cases config m
  obtain ⟨hok, hall⟩ := d.setup_eq_ok_iff hrun
  refine ⟨ran, hrun, hok, hran.imp And.left id, fun hsuccess => ?_⟩
  have hresult := hall.2 hsuccess
  have hwithout : m.network.without d = start.network.without d := d.without_requests calls start
  have hnetwork := d.network_of_succeeded (hok.1 hresult)
  refine ⟨hresult, fun clean hclean hcleanResult => ?_, ?_⟩
  · obtain ⟨ran', hrun', -⟩ := d.setup_cases config clean
    rw [hrun', d.network_of_succeeded ((d.setup_eq_ok_iff hrun').1.1 hcleanResult), hnetwork]
    refine d.withDevice_congr ?_ config
    rw [hwithout, hclean]
    exact (Network.ext (Function.update_idem _ _ _) (Function.update_idem _ _ _)).symm
  · rw [← hwithout]
    exact d.teardown_of_network hnetwork

/-- A namespace and a link are left over. A first setup cannot remove the namespace, a second one fails at its
second command and cannot take it back, and a teardown fails. Then a setup gets through. -/
theorem setup_under_faults_third_time :
    let d : NamespaceDevice := ⟨"gridgate", "wg0"⟩
    let config : DeviceSetup := ⟨⟨List.replicate 32 7, rfl⟩, 51820, ⟨⟨[0xfd4b, 0, 0, 0, 0, 0, 0, 1], rfl⟩, 64⟩⟩
    let start : FaultyHost := ⟨⟨fun ns => if ns = "gridgate" then some [] else none, fun link => link == "wg0"⟩,
      fun n => if n ∈ [1, 4, 5, 6] then .exited 1 "busy" else .exited 0 "", []⟩
    let clean : FaultyHost := ⟨start.network.without d, fun _ => .exited 0 "", []⟩
    let m := d.requests [.setup config, .setup config, .teardown] start
    (d.setup config m).1 = .ok () ∧ (d.setup config m).2.network = (d.setup config clean).2.network := by
  intro d config start clean m
  have hok : (d.setup config m).1 = .ok () := by
    subst d config start m
    decide +kernel
  have hclean : (d.setup config clean).1 = .ok () := by
    subst d config start clean
    decide +kernel
  obtain ⟨ran, hrun, hiff, -, hthrough⟩ :=
    d.setup_under_faults config [.setup config, .setup config, .teardown] start
  obtain ⟨-, hsame, -⟩ := hthrough (hiff.1 hok).2
  exact ⟨hok, (congrArg FaultyHost.network hrun).trans (hsame clean rfl hclean)⟩

end NamespaceDevice
end GatewayControl
