import RestApi.WorldView

namespace RestApi
open Pool Program RowStore

variable {cfg : Config} {w after : World} {pid other : Pid}

section Validity

-- Redis, the outbox and the object storage are no part of it.
theorem WorldValid.beside (valid : WorldValid w) (db : after.db = w.db)
    (uuids : after.uuids = w.uuids) (tokens : after.tokens = w.tokens)
    (requests : after.requests = w.requests)
    (journal : after.journal = w.journal) : WorldValid after := by
  refine ⟨?_,?_,?_,?_,?_,?_,?_,?_,?_⟩
  · exact db ▸ valid.db
  · rw [db,requests,journal]; exact valid.unborn
  · rw [db,journal]; exact valid.clocks
  · rw [db,journal]; exact valid.selects
  · rw [uuids,journal]; exact valid.drawn
  · rw [tokens,journal]; exact valid.minted
  · rw [journal]; exact valid.uuids
  · rw [journal]; exact valid.tokens
  · rw [db,journal]; exact valid.owners

-- A step that leaves the journal and the log alone.
theorem store_valid {db : Store Row Key} (valid : WorldValid w) (stored : Valid schema db)
    (base : db.base = w.db.base) (log : db.log = w.db.log) (later : w.db.now ≤ db.now)
    (asked : w.requests pid ≠ none) (others : ∀ q, q ≠ pid → db.txs q = w.db.txs q) :
    WorldValid {w with db := db} where
  db := stored
  unborn q absent := by
    have different : q ≠ pid := fun same => asked (same ▸ absent)
    exact ⟨(others q different).trans (valid.unborn q absent).1,(valid.unborn q absent).2⟩
  clocks q time heard := Int.le_trans (valid.clocks q time heard) later
  selects q n rows got := by
    show n ≤ db.log.length ∧ ∀ row ∈ rows, row ∈ schema.rowsAt db.base db.log n
    rw [base,log]
    exact valid.selects q n rows got
  drawn := valid.drawn
  minted := valid.minted
  uuids := valid.uuids
  tokens := valid.tokens
  owners entry member := valid.owners entry (log ▸ member)

-- What an event must satisfy when it is written down.
def Noted (w : World) : Event → Prop
  | .clock time => time ≤ w.db.now
  | .selected n rows => n ≤ w.db.log.length ∧ ∀ row ∈ rows, row ∈ schema.rowsAt w.db.base w.db.log n
  | .uuid made => made ∈ w.uuids ∧ ∀ q, (q,.uuid made) ∉ w.journal
  | .token raw => raw ∈ w.tokens ∧ ∀ q, (q,.token raw) ∉ w.journal
  | _ => True

theorem note_valid (valid : WorldValid w) (asked : w.requests pid ≠ none) (noted : Noted w event) :
    WorldValid (w.note pid event) where
  db := valid.db
  unborn q absent := by
    have different : q ≠ pid := fun same => asked (same ▸ absent)
    exact ⟨(valid.unborn q absent).1,(own_cons_other _ _ different).trans (valid.unborn q absent).2⟩
  clocks q time heard := by
    rcases List.mem_cons.mp heard with new | old
    · cases new; exact noted
    · exact valid.clocks q time old
  selects q n rows got := by
    rcases List.mem_cons.mp got with new | old
    · cases new; exact noted
    · exact valid.selects q n rows old
  drawn q made got := by
    rcases List.mem_cons.mp got with new | old
    · cases new; exact noted.1
    · exact valid.drawn q made old
  minted q raw got := by
    rcases List.mem_cons.mp got with new | old
    · cases new; exact noted.1
    · exact valid.minted q raw old
  uuids p q made first second := by
    rcases List.mem_cons.mp first with new | old
    · cases new
      rcases List.mem_cons.mp second with new | old
      · cases new; rfl
      · exact absurd old (noted.2 q)
    · rcases List.mem_cons.mp second with new | also
      · cases new; exact absurd old (noted.2 p)
      · exact valid.uuids p q made old also
  tokens p q raw first second := by
    rcases List.mem_cons.mp first with new | old
    · cases new
      rcases List.mem_cons.mp second with new | old
      · cases new; rfl
      · exact absurd old (noted.2 q)
    · rcases List.mem_cons.mp second with new | also
      · cases new; exact absurd old (noted.2 p)
      · exact valid.tokens p q raw old also
  owners entry member := List.mem_cons_of_mem _ (valid.owners entry member)

theorem abort_valid (valid : WorldValid w)
    (asked : w.requests pid ≠ none) : WorldValid (w.abort pid) :=
  store_valid valid (rollback_valid valid.db pid) rfl rfl (Int.le_refl _) asked
    fun q different => by simp [Store.rollback,Function.update_of_ne different]

theorem set_world_valid {t : Tx Row Key} (valid : WorldValid w) (asked : w.requests pid ≠ none)
    (stored : Valid schema (w.db.set pid t)) : WorldValid {w with db := w.db.set pid t} :=
  store_valid valid stored rfl rfl (Int.le_refl _) asked
    fun q different => by simp [Store.set,Function.update_of_ne different]

theorem swept_valid {reply : Option (Except SqlError (List Row))} (valid : WorldValid w)
    (asked : w.requests pid ≠ none)
    (swept : Swept w pid test change reply after) : WorldValid after := by
  cases swept with
  | planned ran =>
      have stored := started_valid valid.db ran
      obtain ⟨t,_,_,_,_,_,rfl⟩ := start_parts ran
      exact set_world_valid valid asked stored
  | visited _ ran =>
      have stored := visited_valid valid.db ran
      obtain ⟨t,scan,k,rest,row,_,_,_,_,_,_,rfl⟩ := visit_parts ran
      exact set_world_valid valid asked stored
  | finished _ ran =>
      have stored := finished_valid valid.db ran
      obtain ⟨t,scan,_,_,_,_,rfl⟩ := finish_parts ran
      exact set_world_valid valid asked stored
  | aborted => exact abort_valid valid asked

theorem committed_world_valid {db : Store Row Key} (valid : WorldValid w)
    (asked : w.requests pid ≠ none) (ran : w.db.commit pid = some db) :
    WorldValid ({w with db := db}.note pid .committed) := by
  have stored := committed_valid valid.db ran
  obtain ⟨t,_,_,rfl⟩ := commit_parts ran
  refine ⟨stored,fun q absent => ?_,fun q time heard => ?_,fun q n rows got => ?_,
    fun q made got => ?_,fun q raw got => ?_,fun p q made first second => ?_,
    fun p q raw first second => ?_,fun entry member => ?_⟩
  · have different : q ≠ pid := fun same => asked (same ▸ absent)
    refine ⟨?_,(own_cons_other _ _ different).trans (valid.unborn q absent).2⟩
    exact (Function.update_of_ne different _ _).trans (valid.unborn q absent).1
  · rcases List.mem_cons.mp heard with new | old
    · cases new
    · exact valid.clocks q time old
  · rcases List.mem_cons.mp got with new | old
    · cases new
    · obtain ⟨before,found⟩ := valid.selects q n rows old
      refine ⟨Nat.le_succ_of_le before,?_⟩
      show ∀ row ∈ rows, row ∈ schema.rowsAt w.db.base (⟨pid,w.db.now,t⟩ :: w.db.log) n
      rw [Schema.rowsAt_cons before]
      exact found
  · exact valid.drawn q made (by simpa [World.note] using got)
  · exact valid.minted q raw (by simpa [World.note] using got)
  · exact valid.uuids p q made (by simpa [World.note] using first)
      (by simpa [World.note] using second)
  · exact valid.tokens p q raw (by simpa [World.note] using first)
      (by simpa [World.note] using second)
  · rcases List.mem_cons.mp member with rfl | old
    · exact List.mem_cons_self
    · exact List.mem_cons_of_mem _ (valid.owners entry old)

theorem executed_valid {c : Cmd} {reply : Option (Reply c)} (valid : WorldValid w)
    (asked : w.requests pid ≠ none)
    (done : Executed cfg w pid c reply after) : WorldValid after := by
  cases done with
  | clock => exact note_valid valid asked (Int.le_refl _)
  | @uuid made fresh _ =>
      have drawn : WorldValid {w with uuids := made :: w.uuids} :=
        ⟨valid.db,valid.unborn,valid.clocks,valid.selects,
          fun q old got => List.mem_cons_of_mem _ (valid.drawn q old got),valid.minted,valid.uuids,
          valid.tokens,valid.owners⟩
      exact note_valid drawn asked ⟨List.mem_cons_self,fun q got => fresh (valid.drawn q made got)⟩
  | @token raw fresh =>
      have minted : WorldValid {w with tokens := raw :: w.tokens} :=
        ⟨valid.db,valid.unborn,valid.clocks,valid.selects,valid.drawn,
          fun q old got => List.mem_cons_of_mem _ (valid.minted q old got),valid.uuids,valid.tokens,
            valid.owners⟩
      exact note_valid minted asked ⟨List.mem_cons_self,fun q got => fresh (valid.minted q raw got)⟩
  | selected =>
      refine note_valid valid asked ⟨Nat.le_refl _,fun row member => ?_⟩
      rw [Schema.rowsAt_length]
      exact (List.mem_filter.mp member).1
  | opened ran =>
      have stored := opened_valid valid.db ran
      obtain ⟨_,rfl⟩ := openTx_parts ran
      exact store_valid valid stored rfl rfl (Int.le_refl _) asked
        fun q different => by simp [Function.update_of_ne different]
  | lock swept => exact swept_valid valid asked swept
  | update swept => exact swept_valid valid asked swept
  | inserted _ ran =>
      have stored := inserted_valid valid.db ran
      obtain ⟨t,_,_,_,_,_,rfl⟩ := insert_parts ran
      exact store_valid valid stored rfl rfl (Int.le_refl _) asked
        fun q different => by simp [Store.set,Function.update_of_ne different]
  | committed ran => exact committed_world_valid valid asked ran
  | unconfirmed ran => exact note_valid (committed_world_valid valid asked ran) asked trivial
  | uninserted => exact abort_valid valid asked
  | uncommitted => exact abort_valid valid asked
  | rolledBack => exact abort_valid valid asked
  | signed => exact note_valid valid asked trivial
  | marked _ => exact note_valid (valid.beside rfl rfl rfl rfl rfl) asked trivial
  | lostMark _ =>
      exact note_valid (note_valid (valid.beside rfl rfl rfl rfl rfl) asked trivial) asked trivial
  | unmarked => exact note_valid valid asked trivial
  | fetched _ => exact note_valid valid asked trivial
  | unfetched => exact note_valid valid asked trivial
  | put => exact note_valid (valid.beside rfl rfl rfl rfl rfl) asked trivial
  | asyncDelete => exact note_valid (valid.beside rfl rfl rfl rfl rfl) asked trivial
  | _ => exact valid.beside rfl rfl rfl rfl rfl

end Validity

section Surroundings

theorem accept_parts (accepted : accept w pid request = some after) :
    w.requests pid = none ∧
    after = {w with requests := Function.update w.requests pid (some request)} := by
  unfold accept at accepted
  split at accepted
  · cases accepted
  · rename_i absent
    exact ⟨absent,(Option.some.inj accepted).symm⟩

theorem accept_view (valid : WorldValid w) (accepted : accept w pid request = some after) :
    after.view pid = ⟨some request,none,[],none⟩ := by
  obtain ⟨absent,rfl⟩ := accept_parts accepted
  have uncommitted : w.made pid = none := by
    simp only [World.made,Option.map_eq_none_iff,List.find?_eq_none,decide_eq_true_eq]
    intro entry member same
    have noted := mem_own.mpr (same ▸ valid.owners entry member)
    rw [(valid.unborn pid absent).2] at noted
    cases noted
  simpa [World.view,World.made,valid.unborn pid absent] using uncommitted

theorem accept_frame (accepted : accept w pid request = some after) (different : other ≠ pid) :
    after.view other = w.view other := by
  obtain ⟨_,rfl⟩ := accept_parts accepted
  simp [World.view,World.made,Function.update_of_ne different]

theorem accept_valid (valid : WorldValid w)
    (accepted : accept w pid request = some after) : WorldValid after := by
  obtain ⟨_,rfl⟩ := accept_parts accepted
  refine ⟨valid.db,fun q absent => ?_,valid.clocks,valid.selects,valid.drawn,valid.minted,
    valid.uuids,valid.tokens,valid.owners⟩
  by_cases same : q = pid
  · subst same; simp at absent
  · exact valid.unborn q (by simpa [Function.update_of_ne same] using absent)

-- A goroutine that dies was asked for something, or had nothing to leave behind.
theorem abandon_valid (valid : WorldValid w) (pid : Pid) : WorldValid (w.abort pid) := by
  by_cases asked : w.requests pid = none
  · have idle : w.abort pid = w := by
      have same : Function.update w.db.txs pid none = w.db.txs := by
        rw [← (valid.unborn pid asked).1,Function.update_eq_self]
      simp only [World.abort,Store.rollback,same]
    rw [idle]
    exact valid
  · exact abort_valid valid asked

theorem abandon_frame (w : World) (different : other ≠ pid) :
    (w.abort pid).view other = w.view other := by
  simp [World.view,World.made,World.abort,Store.rollback,Function.update_of_ne different]

theorem surroundings_parts (ran : surroundings w event = some after) :
    (∃ elapsed, after = {w with db := w.db.tick elapsed}) ∨
      ∃ objects, after = {w with objects := objects} := by
  cases event with
  | tick elapsed => cases ran; exact .inl ⟨elapsed,rfl⟩
  | deleted path =>
      simp only [surroundings,Option.ite_none_right_eq_some,Option.some.injEq] at ran
      exact .inr ⟨_,ran.2.symm⟩

theorem surroundings_view (ran : surroundings w event = some after) (pid : Pid) :
    after.view pid = w.view pid := by
  rcases surroundings_parts ran with ⟨elapsed,rfl⟩ | ⟨objects,rfl⟩ <;> rfl

theorem surroundings_valid (valid : WorldValid w)
    (ran : surroundings w event = some after) : WorldValid after := by
  rcases surroundings_parts ran with ⟨elapsed,rfl⟩ | ⟨objects,rfl⟩
  · exact ⟨tick_valid valid.db elapsed,valid.unborn,
      fun pid time heard => Int.le_trans (valid.clocks pid time heard) (by simp [Store.tick]),
      valid.selects,valid.drawn,valid.minted,valid.uuids,valid.tokens,valid.owners⟩
  · exact valid.beside rfl rfl rfl rfl rfl

theorem start_valid {base : List Row} (keyed : schema.Keyed base) (apart : schema.Apart base) :
    WorldValid (World.start base serial uuids now) := by
  refine ⟨⟨.start keyed apart,?_,?_,?_,?_,?_⟩,?_,?_,?_,?_,?_,?_,?_,?_⟩ <;> simp [World.start,own]

-- Nothing of the past is ever taken back.
structure Grows (w after : World) : Prop where
  base : after.db.base = w.db.base
  log : ∃ newer, after.db.log = newer ++ w.db.log
  now : w.db.now ≤ after.db.now
  requests : ∀ pid request, w.requests pid = some request → after.requests pid = some request
  journal : w.journal ⊆ after.journal
  uuids : w.uuids ⊆ after.uuids

theorem Grows.refl (w : World) : Grows w w :=
  ⟨rfl,⟨[],rfl⟩,Int.le_refl _,fun _ _ asked => asked,List.Subset.refl _,List.Subset.refl _⟩

theorem Grows.trans (first : Grows w middle) (second : Grows middle after) : Grows w after := by
  obtain ⟨older,one⟩ := first.log
  obtain ⟨newer,two⟩ := second.log
  exact ⟨second.base.trans first.base,⟨newer ++ older,by rw [two,one,List.append_assoc]⟩,
    Int.le_trans first.now second.now,fun pid request asked => second.requests pid request
    (first.requests pid request asked),List.Subset.trans first.journal second.journal,
    List.Subset.trans first.uuids second.uuids⟩

theorem Grows.own (grows : Grows w after) (pid : Pid) : own w.journal pid ⊆ own after.journal pid :=
  fun _ member => mem_own.mpr (grows.journal (mem_own.mp member))

theorem store_grows {db : Store Row Key} (base : db.base = w.db.base) (log : db.log = w.db.log)
    (now : db.now = w.db.now) : Grows w {w with db := db} :=
  ⟨base,⟨[],log⟩,Int.le_of_eq now.symm,fun _ _ asked => asked,List.Subset.refl _,List.Subset.refl _⟩

theorem note_grows (w : World) (pid : Pid) (event : Event) : Grows w (w.note pid event) :=
  ⟨rfl,⟨[],rfl⟩,Int.le_refl _,fun _ _ asked => asked,List.subset_cons_self _ _,List.Subset.refl _⟩

theorem committed_grows {db : Store Row Key} (ran : w.db.commit pid = some db) :
    Grows w ({w with db := db}.note pid .committed) := by
  obtain ⟨t,_,_,rfl⟩ := commit_parts ran
  exact ⟨rfl,⟨[_],rfl⟩,Int.le_refl _,fun _ _ asked => asked,List.subset_cons_self _ _,
    List.Subset.refl _⟩

theorem executed_grows {c : Cmd} {reply : Option (Reply c)}
    (done : Executed cfg w pid c reply after) : Grows w after := by
  have swept {test change reply} (swept : Swept w pid test change reply after) : Grows w after := by
    cases swept with
    | planned ran => obtain ⟨t,_,_,_,_,_,rfl⟩ := start_parts ran; exact store_grows rfl rfl rfl
    | visited _ ran =>
        obtain ⟨t,scan,k,rest,row,_,_,_,_,_,_,rfl⟩ := visit_parts ran; exact store_grows rfl rfl rfl
    | finished _ ran =>
        obtain ⟨t,scan,_,_,_,_,rfl⟩ := finish_parts ran; exact store_grows rfl rfl rfl
    | aborted => exact store_grows rfl rfl rfl
  cases done with
  | clock => exact note_grows _ _ _
  | selected => exact note_grows _ _ _
  | signed => exact note_grows _ _ _
  | unmarked => exact note_grows _ _ _
  | fetched _ => exact note_grows _ _ _
  | unfetched => exact note_grows _ _ _
  | lock ran => exact swept ran
  | update ran => exact swept ran
  | opened ran => obtain ⟨_,rfl⟩ := openTx_parts ran; exact store_grows rfl rfl rfl
  | inserted _ ran => obtain ⟨t,_,_,_,_,_,rfl⟩ := insert_parts ran; exact store_grows rfl rfl rfl
  | committed ran => exact committed_grows ran
  | unconfirmed ran => exact (committed_grows ran).trans (note_grows _ _ _)
  | uninserted => exact store_grows rfl rfl rfl
  | uncommitted => exact store_grows rfl rfl rfl
  | rolledBack => exact store_grows rfl rfl rfl
  | _ =>
      exact ⟨rfl,⟨[],rfl⟩,Int.le_refl _,fun _ _ asked => asked,by simp [World.note,World.setMarker],
      by simp [World.note,World.setMarker]⟩

theorem executed_requests {c : Cmd} {reply : Option (Reply c)}
    (done : Executed cfg w pid c reply after) : after.requests = w.requests := by
  cases done with
  | lock swept => cases swept <;> rfl
  | update swept => cases swept <;> rfl
  | _ => rfl

abbrev Api := State Cmd Reply Err Value World

-- What one act makes of the world.
inductive Turns (cfg : Config) (s : Api) : Act Request Choice Surroundings → World → Prop where
  | asked {pid : Pid} (unasked : s.shared.requests pid = none) :
      Turns cfg s (.spawn pid request)
        {s.shared with requests := Function.update s.shared.requests pid (some request)}
  | executed {pid : Pid} {after : World} (here : s.threads pid = some (.call c next))
      (ran : exec cfg s.shared pid c choice = some (after,reply)) :
      Turns cfg s (.step pid choice) after
  | aborted {pid : Pid} : Turns cfg s (.kill pid) (s.shared.abort pid)
  | ticked : Turns cfg s (.env event) {s.shared with db := s.shared.db.tick elapsed}
  | removed : Turns cfg s (.env event) {s.shared with objects := objects}

theorem moves_turns {s next : Api} (moves : Moves (api cfg) s act next) :
    Turns cfg s act next.shared := by
  cases moves with
  | spawn accepted =>
      obtain ⟨unasked,rfl⟩ := accept_parts accepted
      exact .asked unasked
  | wait here ran => exact .executed here ran
  | reply here ran => exact .executed here ran
  | kill _ => exact .aborted
  | env ran =>
      rcases surroundings_parts ran with ⟨elapsed,rfl⟩ | ⟨objects,rfl⟩
      · exact .ticked
      · exact .removed

-- One induction for every law about the world.
theorem reached_world {init s : Api} (Inv : World → Prop) (start : Inv init.shared)
    (kept : ∀ {s act after}, Reached (api cfg) allow init s → Inv s.shared → allow s act →
      Turns cfg s act after → Inv after) (path : Reached (api cfg) allow init s) : Inv s.shared :=
  path.invariant (fun s => Inv s.shared) start fun prior inv allowed moves => kept prior inv allowed
    (moves_turns moves)

theorem turns_grows {s : Api} (turns : Turns cfg s act after) : Grows s.shared after := by
  cases turns with
  | @asked request pid absent =>
      refine ⟨rfl,⟨[],rfl⟩,Int.le_refl _,fun other request' asked => ?_,List.Subset.refl _,
        List.Subset.refl _⟩
      by_cases same : other = pid
      · rw [same,absent] at asked; cases asked
      · simpa [Function.update_of_ne same] using asked
  | executed _ ran => exact executed_grows (exec_executed ran)
  | aborted => exact store_grows rfl rfl rfl
  | ticked =>
      exact ⟨rfl,⟨[],rfl⟩,by simp [Store.tick],fun _ _ asked => asked,List.Subset.refl _,
        List.Subset.refl _⟩
  | removed =>
      exact ⟨rfl,⟨[],rfl⟩,Int.le_refl _,fun _ _ asked => asked,List.Subset.refl _,
        List.Subset.refl _⟩

theorem moves_grows {s next : Api} (moves : Moves (api cfg) s act next) :
    Grows s.shared next.shared :=
  turns_grows (moves_turns moves)

theorem reached_grows {s next : Api} (path : Reached (api cfg) allow s next) :
    Grows s.shared next.shared := by
  induction path with
  | refl => exact .refl _
  | step _ _ advanced ih => exact ih.trans (moves_grows (advance_moves advanced))

end Surroundings

end RestApi
