import MoveOutline.Proofs.Syntax.Arena
/-!
# What a builder answers

An **exchange** is a step of a script with the answer to it. Whoever keeps the exchanges of a
script needs no builder: how many nodes are open, what the next step is answered, which node the
next finish closes and whether there is a tree in the end can all be told from them.

A script is **balanced** if nothing is left open, and it has one root if no more than one node was
added while nothing was open. The scripts that build a tree are those that are balanced, add a
node and have one root, where finishes that failed do not count.

Results:
* `Builder.accounts_perform`: what the exchanges say of a builder is kept by a step.
* `Builder.accounts_run`: it holds after every script.
* `Builder.run_kept`: a script without its failed steps leads to the same builder.
* `Builder.finish_of_accounts`, `Builder.build_of_accounts`: the next finish and the end, told from
  the exchanges.
* `Builder.run_answers`: all answers, told from the exchanges.
-/
namespace MoveOutline

namespace BuildStep

/-- Whether a step opens a node. -/
def opens : BuildStep → Bool
  | start .. => true
  | token _ => false
  | finish _ => false

/-- Whether a step adds a node. -/
def adds : BuildStep → Bool
  | start .. => true
  | token _ => true
  | finish _ => false

variable (kind : String) (named : Bool) (pos : Position) (label : Label)

@[simp] theorem opens_start : (start kind named pos).opens = true := rfl
@[simp] theorem opens_token : (token label).opens = false := rfl
@[simp] theorem opens_finish : (finish pos).opens = false := rfl
@[simp] theorem adds_start : (start kind named pos).adds = true := rfl
@[simp] theorem adds_token : (token label).adds = true := rfl
@[simp] theorem adds_finish : (finish pos).adds = false := rfl

end BuildStep

/-- A step with the answer to it, and the number of nodes that were open before. -/
structure Exchange where
  depth : Nat
  step : BuildStep
  answer : Except SyntaxError Nat

namespace Exchange

variable {log : List Exchange} {e : Exchange} {id : Nat}

/-- The node that was opened. -/
def opened? (e : Exchange) : Option Nat :=
  match e.step, e.answer with
  | .start .., .ok id => some id
  | _, _ => none

/-- The node that was finished. -/
def finished? (e : Exchange) : Option Nat :=
  match e.step, e.answer with
  | .finish _, .ok id => some id
  | _, _ => none

/-- How many nodes were added. -/
def added (log : List Exchange) : Nat :=
  log.countP (·.step.adds)

/-- How many nodes were opened. -/
def starts (log : List Exchange) : Nat :=
  log.countP (·.step.opens)

/-- How many finishes succeeded. -/
def finishes (log : List Exchange) : Nat :=
  log.countP (·.finished?.isSome)

/-- How many nodes were added while no node was open. -/
def outermost (log : List Exchange) : Nat :=
  log.countP fun e => e.step.adds && e.depth == 0

/-- The nodes that were opened and not finished, in the order of opening. -/
def unfinished (log : List Exchange) : List Nat :=
  (log.filterMap opened?).filter fun id => id ∉ log.filterMap finished?

/-- Whether the step was done. -/
def succeeded (e : Exchange) : Bool :=
  e.answer.isOk

/-- The steps that were done. -/
def kept (log : List Exchange) : List BuildStep :=
  (log.filter succeeded).map (·.step)

theorem kept_cons_of_succeeded (h : e.succeeded = true) : kept (e :: log) = e.step :: kept log := by
  rw [kept, List.filter_cons_of_pos h, List.map_cons, kept]

theorem kept_cons_of_failed (h : e.succeeded = false) : kept (e :: log) = kept log := by
  rw [kept, List.filter_cons_of_neg (by simp [h]), kept]

theorem answer_of_opened? (h : e.opened? = some id) : e.answer = .ok id := by
  unfold opened? at h
  split at h
  · next heq => rw [heq, Option.some.inj h]
  · cases h

theorem answer_of_finished? (h : e.finished? = some id) : e.answer = .ok id := by
  unfold finished? at h
  split at h
  · next heq => rw [heq, Option.some.inj h]
  · cases h

/-! One more exchange. -/

theorem added_concat (log : List Exchange) (e : Exchange) :
    added (log ++ [e]) = added log + if e.step.adds then 1 else 0 := by
  rw [added, List.countP_append, List.countP_singleton, added]

theorem starts_concat (log : List Exchange) (e : Exchange) :
    starts (log ++ [e]) = starts log + if e.step.opens then 1 else 0 := by
  rw [starts, List.countP_append, List.countP_singleton, starts]

theorem finishes_concat (log : List Exchange) (e : Exchange) :
    finishes (log ++ [e]) = finishes log + if e.finished?.isSome then 1 else 0 := by
  rw [finishes, List.countP_append, List.countP_singleton, finishes]

theorem outermost_concat (log : List Exchange) (e : Exchange) :
    outermost (log ++ [e]) = outermost log + if e.step.adds ∧ e.depth = 0 then 1 else 0 := by
  rw [outermost, List.countP_append, List.countP_singleton, outermost]
  simp only [Bool.and_eq_true, beq_iff_eq]

theorem unfinished_concat (ho : e.opened? = none) (hf : e.finished? = none) :
    unfinished (log ++ [e]) = unfinished log := by
  simp [unfinished, ho, hf]

theorem unfinished_concat_opened (ho : e.opened? = some id) (hf : e.finished? = none)
    (hnew : id ∉ log.filterMap finished?) :
    unfinished (log ++ [e]) = unfinished log ++ [id] := by
  have hfinished : (log ++ [e]).filterMap finished? = log.filterMap finished? := by simp [hf]
  have hopened : (log ++ [e]).filterMap opened? = log.filterMap opened? ++ [id] := by simp [ho]
  rw [unfinished, hfinished, hopened, List.filter_append, ← unfinished,
    List.filter_cons_of_pos (by simpa using hnew), List.filter_nil]

theorem unfinished_concat_finished (ho : e.opened? = none) (hf : e.finished? = some id) :
    unfinished (log ++ [e]) = (unfinished log).filter (· ≠ id) := by
  rw [unfinished, unfinished, List.filterMap_append, List.filterMap_append, List.filter_filter]
  simp [ho, hf, and_comm]

end Exchange

namespace Builder

/-- A step with the answer that the builder gives. -/
def exchange (b : Builder) (s : BuildStep) : Exchange :=
  ⟨b.depth, s, (b.perform s).1⟩

@[simp] theorem depth_exchange (b : Builder) (s : BuildStep) : (b.exchange s).depth = b.depth := rfl

@[simp] theorem step_exchange (b : Builder) (s : BuildStep) : (b.exchange s).step = s := rfl

/-- The exchanges of a script. -/
def exchanges (b : Builder) : List BuildStep → List Exchange
  | [] => []
  | s :: steps => b.exchange s :: (b.perform s).2.exchanges steps

/-- What the exchanges of a script say of the builder after it. -/
structure Accounts (log : List Exchange) (b : Builder) : Prop where
  /-- The next id is the number of nodes added. -/
  count : b.count = Exchange.added log
  /-- What was opened is open or finished. -/
  depth : b.depth + Exchange.finishes log = Exchange.starts log
  /-- The open nodes are those not finished, and the latest is the innermost. -/
  frames : b.frames.map (·.id) = (Exchange.unfinished log).reverse
  /-- Every root was added with nothing open, and so was the outermost open node. -/
  roots : b.roots.length + min b.depth 1 = Exchange.outermost log
  /-- Only ids that were handed out have been answered. -/
  answered : ∀ e ∈ log, ∀ id, e.answer = .ok id → id < b.count
  /-- No id is handed out twice. -/
  nodup : (log.filterMap Exchange.opened?).Nodup

theorem accounts_empty : Accounts [] empty :=
  ⟨rfl, rfl, rfl, rfl, by simp, List.nodup_nil⟩

/-! ## One step -/

theorem perform_finish_nil {b : Builder} (h : b.frames = []) (stop : Position) :
    b.perform (.finish stop) = (.error .nothingToFinish, b) := by
  simp only [perform, finish, h]

theorem perform_finish_cons {b : Builder} {f : Frame} {outer : List Frame}
    (h : b.frames = f :: outer) (stop : Position) :
    b.perform (.finish stop) = (.ok f.id, push { b with frames := outer } (f.close stop)) := by
  simp only [perform, finish, h]

/-- A finished tree is one more root if nothing is open. -/
theorem length_roots_push (b : Builder) (t : Tree) :
    (b.push t).roots.length = b.roots.length + if b.depth = 0 then 1 else 0 := by
  obtain ⟨count, frames, roots⟩ := b
  cases frames <;> rfl

namespace Accounts

variable {log : List Exchange} {b : Builder}

/-- The next id has not been answered. -/
theorem count_notMem (h : Accounts log b) {f : Exchange → Option Nat}
    (hf : ∀ e id, f e = some id → e.answer = .ok id) : b.count ∉ log.filterMap f := by
  intro hmem
  obtain ⟨e, he, hid⟩ := List.mem_filterMap.1 hmem
  exact Nat.lt_irrefl _ (h.answered e he _ (hf e _ hid))

theorem answered_concat (h : Accounts log b) {e : Exchange} {count : Nat}
    (hcount : b.count ≤ count) (he : ∀ id, e.answer = .ok id → id < count) :
    ∀ e' ∈ log ++ [e], ∀ id, e'.answer = .ok id → id < count := by
  intro e' he' id hid
  rcases List.mem_append.1 he' with hlog | hnew
  · exact Nat.lt_of_lt_of_le (h.answered e' hlog id hid) hcount
  · rw [List.mem_singleton.1 hnew] at hid
    exact he id hid

theorem start (h : Accounts log b) (kind : String) (named : Bool) (pos : Position) :
    Accounts (log ++ [b.exchange (.start kind named pos)])
      (b.perform (.start kind named pos)).2 := by
  have ho : (b.exchange (.start kind named pos)).opened? = some b.count := rfl
  have hf : (b.exchange (.start kind named pos)).finished? = none := rfl
  have hnew : b.count ∉ log.filterMap Exchange.finished? :=
    h.count_notMem fun _ _ => Exchange.answer_of_finished?
  have hfresh : b.count ∉ log.filterMap Exchange.opened? :=
    h.count_notMem fun _ _ => Exchange.answer_of_opened?
  have hdepth : (b.perform (.start kind named pos)).2.depth = b.depth + 1 := b.depth_start ..
  constructor
  case count =>
    rw [Exchange.added_concat, ← h.count]
    rfl
  case depth =>
    rw [Exchange.finishes_concat, Exchange.starts_concat, ← h.depth, hf, hdepth]
    simp only [step_exchange, BuildStep.opens_start, Option.isSome_none, Bool.false_eq_true,
      if_true, if_false]
    omega
  case frames =>
    rw [Exchange.unfinished_concat_opened ho hf hnew, List.reverse_append, ← h.frames]
    rfl
  case roots =>
    have hroots : (b.perform (.start kind named pos)).2.roots = b.roots := rfl
    rw [Exchange.outermost_concat, ← h.roots, hdepth, hroots]
    simp only [step_exchange, depth_exchange, BuildStep.adds_start, true_and]
    by_cases hzero : b.depth = 0
    · simp [hzero]
    · rw [if_neg hzero]
      omega
  case answered =>
    refine h.answered_concat (Nat.le_succ _) fun id hid => ?_
    have hid : b.count = id := Except.ok.inj hid
    exact hid ▸ Nat.lt_succ_self _
  case nodup =>
    rw [List.filterMap_append, List.nodup_append_comm]
    simpa [ho] using ⟨by simpa using hfresh, h.nodup⟩

theorem token (h : Accounts log b) (label : Label) :
    Accounts (log ++ [b.exchange (.token label)]) (b.perform (.token label)).2 := by
  have ho : (b.exchange (.token label)).opened? = none := rfl
  have hf : (b.exchange (.token label)).finished? = none := rfl
  have hdepth : (b.perform (.token label)).2.depth = b.depth := b.depth_token _
  constructor
  case count =>
    rw [Exchange.added_concat, ← h.count]
    rfl
  case depth =>
    rw [Exchange.finishes_concat, Exchange.starts_concat, ← h.depth, hf, hdepth]
    simp
  case frames =>
    rw [Exchange.unfinished_concat ho hf, ← h.frames]
    exact b.map_id_frames_push _
  case roots =>
    have hroots : (b.perform (.token label)).2.roots.length =
        b.roots.length + if b.depth = 0 then 1 else 0 := b.length_roots_push _
    rw [Exchange.outermost_concat, ← h.roots, hdepth, hroots]
    simp only [step_exchange, depth_exchange, BuildStep.adds_token, true_and]
    exact Nat.add_right_comm ..
  case answered =>
    refine h.answered_concat (Nat.le_succ _) fun id hid => ?_
    have hid : b.count = id := Except.ok.inj hid
    exact hid ▸ Nat.lt_succ_self _
  case nodup => simpa [ho] using h.nodup

/-- A finish that fails counts for nothing. -/
theorem failed (h : Accounts log b) (hframes : b.frames = []) (stop : Position) :
    Accounts (log ++ [b.exchange (.finish stop)]) b := by
  have ho : (b.exchange (.finish stop)).opened? = none := rfl
  have hanswer : (b.exchange (.finish stop)).answer = .error .nothingToFinish := by
    rw [exchange, perform_finish_nil hframes]
  have hf : (b.exchange (.finish stop)).finished? = none := by
    rw [Exchange.finished?, step_exchange, hanswer]
  constructor
  case count =>
    rw [Exchange.added_concat, ← h.count]
    rfl
  case depth =>
    rw [Exchange.finishes_concat, Exchange.starts_concat, ← h.depth, hf]
    simp
  case frames => rw [Exchange.unfinished_concat ho hf, h.frames]
  case roots =>
    rw [Exchange.outermost_concat, ← h.roots]
    simp
  case answered =>
    refine h.answered_concat (Nat.le_refl _) fun id hid => ?_
    rw [hanswer] at hid
    cases hid
  case nodup => simpa [ho] using h.nodup

/-- A finish that succeeds closes the node that was opened last. -/
theorem closed (h : Accounts log b) {f : Frame} {outer : List Frame}
    (hframes : b.frames = f :: outer) (stop : Position) :
    Accounts (log ++ [b.exchange (.finish stop)])
      (push { b with frames := outer } (f.close stop)) := by
  have ho : (b.exchange (.finish stop)).opened? = none := rfl
  have hanswer : (b.exchange (.finish stop)).answer = .ok f.id := by
    rw [exchange, perform_finish_cons hframes]
  have hf : (b.exchange (.finish stop)).finished? = some f.id := by
    rw [Exchange.finished?, step_exchange, hanswer]
  have hopen : b.depth = outer.length + 1 := by rw [Builder.depth, hframes]; rfl
  have hdepth : (push { b with frames := outer } (f.close stop)).depth = outer.length :=
    depth_push ..
  have hunfinished : Exchange.unfinished log = (outer.map (·.id)).reverse ++ [f.id] := by
    rw [← List.reverse_reverse (Exchange.unfinished log), ← h.frames, hframes, List.map_cons,
      List.reverse_cons]
  constructor
  case count =>
    rw [Exchange.added_concat, ← h.count, count_push]
    rfl
  case depth =>
    rw [Exchange.finishes_concat, Exchange.starts_concat, ← h.depth, hf, hdepth, hopen]
    simp only [step_exchange, BuildStep.opens_finish, Option.isSome_some, Bool.false_eq_true,
      if_true, if_false]
    omega
  case frames =>
    have hother : ∀ id ∈ (outer.map (·.id)).reverse, decide (id ≠ f.id) = true := by
      have hnodup : (Exchange.unfinished log).Nodup := h.nodup.filter _
      rw [hunfinished] at hnodup
      intro id hid
      have hne := (List.nodup_append.1 hnodup).2.2 id hid f.id (List.mem_singleton_self _)
      exact decide_eq_true hne
    rw [Exchange.unfinished_concat_finished ho hf, map_id_frames_push, hunfinished,
      List.filter_append, List.filter_eq_self.2 hother]
    simp
  case roots =>
    rw [Exchange.outermost_concat, ← h.roots, hdepth, length_roots_push, hopen]
    simp only [step_exchange, BuildStep.adds_finish, Builder.depth]
    cases outer <;> simp
  case answered =>
    rw [count_push]
    refine h.answered_concat (Nat.le_refl _) fun id hid => ?_
    rw [hanswer] at hid
    have hmem : f.id ∈ log.filterMap Exchange.opened? := by
      refine (List.mem_filter.1 (?_ : f.id ∈ Exchange.unfinished log)).1
      rw [hunfinished]
      exact List.mem_concat_self
    obtain ⟨e, he, hopened⟩ := List.mem_filterMap.1 hmem
    cases hid
    exact h.answered e he _ (Exchange.answer_of_opened? hopened)
  case nodup => simpa [ho] using h.nodup

end Accounts

/-- **One exchange.** What the exchanges say of a builder is kept by every step. -/
theorem accounts_perform {log : List Exchange} {b : Builder} (h : Accounts log b) (s : BuildStep) :
    Accounts (log ++ [b.exchange s]) (b.perform s).2 := by
  cases s with
  | start kind named pos => exact h.start kind named pos
  | token label => exact h.token label
  | finish stop =>
    cases hframes : b.frames with
    | nil =>
      rw [perform_finish_nil hframes]
      exact h.failed hframes stop
    | cons f outer =>
      rw [perform_finish_cons hframes]
      exact h.closed hframes stop

/-! ## Scripts -/

theorem map_step_exchanges (b : Builder) (steps : List BuildStep) :
    (b.exchanges steps).map (·.step) = steps := by
  induction steps generalizing b with
  | nil => rfl
  | cons s steps ih => rw [exchanges, List.map_cons, ih, step_exchange]

theorem countP_step_exchanges (p : BuildStep → Bool) (b : Builder) (steps : List BuildStep) :
    (b.exchanges steps).countP (fun e => p e.step) = steps.countP p := by
  conv_rhs => rw [← b.map_step_exchanges steps, List.countP_map]
  rfl

theorem accounts_run {log : List Exchange} {b : Builder} (h : Accounts log b)
    (steps : List BuildStep) : Accounts (log ++ b.exchanges steps) (b.run steps) := by
  induction steps generalizing log b with
  | nil => rwa [exchanges, List.append_nil]
  | cons s steps ih =>
    rw [exchanges, run_cons, List.append_cons]
    exact ih (accounts_perform h s)

/-- A step that fails leaves the builder as it was. -/
theorem perform_of_failed {b : Builder} {s : BuildStep} (h : (b.exchange s).succeeded = false) :
    (b.perform s).2 = b := by
  cases s with
  | start kind named pos => cases h
  | token label => cases h
  | finish stop =>
    cases hframes : b.frames with
    | nil => rw [perform_finish_nil hframes]
    | cons f outer =>
      rw [Exchange.succeeded, exchange, perform_finish_cons hframes] at h
      cases h

/-- **Failed steps do not count.** Without them a script leads to the same builder, and every other
step is answered as before. -/
theorem run_kept (b : Builder) (steps : List BuildStep) :
    b.run (Exchange.kept (b.exchanges steps)) = b.run steps ∧
      b.exchanges (Exchange.kept (b.exchanges steps)) =
        (b.exchanges steps).filter Exchange.succeeded := by
  induction steps generalizing b with
  | nil => exact ⟨rfl, rfl⟩
  | cons s steps ih =>
    cases hs : (b.exchange s).succeeded with
    | false =>
      rw [exchanges, Exchange.kept_cons_of_failed hs, List.filter_cons_of_neg (by simp [hs]),
        run_cons, perform_of_failed hs]
      exact ih b
    | true =>
      obtain ⟨hrun, hexchanges⟩ := ih (b.perform s).2
      rw [exchanges, Exchange.kept_cons_of_succeeded hs, List.filter_cons_of_pos hs, step_exchange,
        run_cons, run_cons, exchanges, hexchanges]
      exact ⟨hrun, rfl⟩

/-! ## The next finish and the end -/

/-- Which node a finish closes, if it closes one. -/
theorem finish_of_accounts {log : List Exchange} {b : Builder} (h : Accounts log b)
    (stop : Position) :
    if Exchange.finishes log = Exchange.starts log then
      b.perform (.finish stop) = (.error .nothingToFinish, b)
    else ∃ id, (b.perform (.finish stop)).1 = .ok id ∧
      (Exchange.unfinished log).getLast? = some id := by
  have hdepth := h.depth
  cases hframes : b.frames with
  | nil =>
    have hzero : b.depth = 0 := by rw [depth, hframes]; rfl
    rw [if_pos (by omega)]
    exact perform_finish_nil hframes stop
  | cons f outer =>
    have hpos : b.depth ≠ 0 := by rw [depth, hframes]; exact Nat.succ_ne_zero _
    rw [if_neg (by omega)]
    refine ⟨f.id, by rw [perform_finish_cons hframes], ?_⟩
    rw [← List.head?_reverse, ← h.frames, hframes]
    rfl

/-- Whether there is a tree, and why not. -/
theorem build_of_accounts {log : List Exchange} {b : Builder} (h : Accounts log b)
    (hnumbered : b.Numbered) :
    if b.depth ≠ 0 then b.build = .error (.unbalanced b.depth)
    else if Exchange.added log = 0 then b.build = .error .empty
    else if 1 < Exchange.outermost log then b.build = .error .multipleRoots
    else ∃ t, b.build = .ok t := by
  split
  case isTrue hopen => rw [build, if_pos hopen]
  case isFalse hclosed =>
    have hdepth : b.depth = 0 := not_not.1 hclosed
    have hbuild : b.build = Tree.ofForest (Forest.ofTrees b.roots.reverse) := by
      rw [build, if_neg hclosed]
    have hroots : b.roots.reverse.length = Exchange.outermost log := by
      rw [← h.roots, hdepth, List.length_reverse]
      rfl
    have hadded : Exchange.added log = (Forest.ofTrees b.roots.reverse).size := by
      rw [← h.count, hnumbered.count, List.eq_nil_of_length_eq_zero hdepth]
      rfl
    rw [hbuild, hadded, ← hroots]
    cases b.roots.reverse with
    | nil => rfl
    | cons t ts => cases ts <;> simp [Forest.ofTrees, Tree.ofForest]

/-- **A builder answers what its exchanges tell.** After any script the depth is the number of
starts less that of finishes that succeeded. The next start or token is answered the number of
nodes added so far. The next finish fails, and changes nothing, exactly if as many finishes have
succeeded as there were starts; otherwise it is answered the node opened last of those not
finished. The end reports open nodes first and with their number, then that there is no node, then
a second node added with nothing open, and is a tree in all other cases. Without the steps that
failed, the builder and all other exchanges are the same. An arena written by the same steps
answers and ends as the builder does. -/
theorem run_answers (steps : List BuildStep) :
    let b := empty.run steps
    let log := empty.exchanges steps
    let starts := steps.countP BuildStep.opens
    let added := steps.countP BuildStep.adds
    let finishes := Exchange.finishes log
    b.depth + finishes = starts ∧
    (∀ kind named pos, (b.perform (.start kind named pos)).1 = .ok added) ∧
    (∀ label, (b.perform (.token label)).1 = .ok added) ∧
    (∀ stop, if finishes = starts then b.perform (.finish stop) = (.error .nothingToFinish, b)
      else ∃ id, (b.perform (.finish stop)).1 = .ok id ∧
        (Exchange.unfinished log).getLast? = some id) ∧
    (if b.depth ≠ 0 then b.build = .error (.unbalanced b.depth)
      else if added = 0 then b.build = .error .empty
      else if 1 < Exchange.outermost log then b.build = .error .multipleRoots
      else ∃ t, b.build = .ok t) ∧
    (empty.run (Exchange.kept log) = b ∧
      empty.exchanges (Exchange.kept log) = log.filter Exchange.succeeded) ∧
    (∀ s, ((Arena.empty.run steps).perform s).1 = (b.perform s).1) ∧
    (Arena.empty.run steps).opened.length = b.depth ∧
    (Arena.empty.run steps).build = b.build.map Tree.records := by
  intro b log starts added finishes
  have haccounts : Accounts log b := accounts_run accounts_empty steps
  have hnumbered : b.Numbered := numbered_run numbered_empty steps
  have hstarts : Exchange.starts log = starts := countP_step_exchanges BuildStep.opens empty steps
  have hadded : Exchange.added log = added := countP_step_exchanges BuildStep.adds empty steps
  have hnext : (Except.ok b.count : Except SyntaxError Nat) = .ok added :=
    congrArg _ (haccounts.count.trans hadded)
  have harena : Arena.empty.run steps = b.arena := arena_run numbered_empty steps
  refine ⟨haccounts.depth.trans hstarts, fun _ _ _ => hnext, fun _ => hnext, ?_, ?_,
    run_kept empty steps, ?_, ?_, build_arena steps⟩
  · rw [← hstarts]
    exact finish_of_accounts haccounts
  · rw [← hadded]
    exact build_of_accounts haccounts hnumbered
  · intro s
    rw [harena, arena_perform hnumbered]
  · rw [harena]
    exact List.length_map ..

/-- Two leaves with nothing open, and two finishes that fail. -/
example (stop : Position) (label : Label) :
    (empty.run [.finish stop, .token label, .finish stop, .token label]).build =
      .error .multipleRoots := rfl

end Builder

end MoveOutline
