import RestApi.RowHistory

namespace RestApi.RowStore
open Pool

variable {Row Key : Type}

theorem updated_tx {txs : Pid → Option (Tx Row Key)} {changed : Option (Tx Row Key)}
    {t : Tx Row Key} (running : Function.update txs pid changed q = some t) :
    q = pid ∧ changed = some t ∨ txs q = some t := by
  by_cases same : q = pid
  · subst same
    rw [Function.update_self] at running
    exact .inl ⟨rfl,running⟩
  · rw [Function.update_of_ne same] at running
    exact .inr running

variable [DecidableEq Key]

-- Every version the store knows has the property: the committed ones, what open
-- transactions have written and what their statements have found.
structure Throughout (S : Schema Row Key) (P : Row → Prop) (s : Store Row Key) : Prop where
  committed : ∀ row ∈ s.committed S, P row
  written : ∀ pid t, s.txs pid = some t → ∀ row ∈ t.writes, P row
  found : ∀ pid t scan, s.txs pid = some t → t.scan = some scan → ∀ row ∈ scan.hits, P row

variable {S : Schema Row Key} {P : Row → Prop} {s after : Store Row Key} {pid : Pid}

theorem Throughout.visible {t : Tx Row Key} (all : Throughout S P s)
    (running : s.txs pid = some t) : ∀ row ∈ s.visible S t, P row := by
  intro row member
  rcases Schema.mem_overlay.mp member with wrote | ⟨kept,_⟩
  · exact all.written pid t running row wrote
  · exact all.committed row kept

-- Only the transaction of one goroutine has changed.
theorem Throughout.changed {changed : Option (Tx Row Key)} (all : Throughout S P s)
    (rows : after.committed S = s.committed S) (txs : after.txs = Function.update s.txs pid changed)
    (written : ∀ t, changed = some t → ∀ row ∈ t.writes, P row)
    (found : ∀ t scan, changed = some t → t.scan = some scan → ∀ row ∈ scan.hits, P row) :
    Throughout S P after where
  committed := rows ▸ all.committed
  written q t running := by
    rw [txs] at running
    rcases updated_tx running with ⟨_,same⟩ | other
    · exact written t same
    · exact all.written q t other
  found q t scan running := by
    rw [txs] at running
    rcases updated_tx running with ⟨_,same⟩ | other
    · exact found t scan same
    · exact all.found q t scan other

theorem rollback_throughout (all : Throughout S P s) (pid : Pid) :
    Throughout S P (s.rollback pid) :=
  all.changed rfl rfl nofun nofun

theorem tick_throughout (all : Throughout S P s) (elapsed : Nat) :
    Throughout S P (s.tick elapsed) :=
  ⟨all.committed,all.written,all.found⟩

theorem openTx_throughout (all : Throughout S P s)
    (ran : s.openTx pid = some after) : Throughout S P after := by
  obtain ⟨_,rfl⟩ := openTx_parts ran
  refine all.changed rfl rfl ?_ ?_
  · rintro t same row member
    cases same
    cases member
  · rintro t scan same scanning
    cases same
    cases scanning

theorem commit_throughout (all : Throughout S P s)
    (ran : s.commit pid = some after) : Throughout S P after := by
  obtain ⟨t,running,_,rfl⟩ := commit_parts ran
  have gone : Throughout S P (s.rollback pid) := rollback_throughout all pid
  refine ⟨fun row member => ?_,gone.written,gone.found⟩
  rcases Schema.mem_rows_cons.mp member with wrote | ⟨kept,_⟩
  · exact all.written pid t running row wrote
  · exact all.committed row kept

theorem start_throughout (all : Throughout S P s)
    (ran : s.start S pid test order = some after) : Throughout S P after := by
  obtain ⟨t,running,_,_,_,_,rfl⟩ := start_parts ran
  refine all.changed rfl rfl ?_ ?_
  · rintro changed same
    cases same
    exact all.written pid t running
  · rintro changed scan same scanning
    cases same
    cases scanning
    nofun

theorem finish_throughout {hits : List Row} (all : Throughout S P s)
    (ran : s.finish pid = some (after,hits)) : Throughout S P after ∧ ∀ row ∈ hits, P row := by
  obtain ⟨t,scan,running,scanning,_,rfl,rfl⟩ := finish_parts ran
  refine ⟨all.changed rfl rfl ?_ ?_,all.found pid t scan running scanning⟩
  · rintro changed same
    cases same
    exact all.written pid t running
  · rintro changed scan same scanning
    cases same
    cases scanning

theorem visit_throughout (all : Throughout S P s) (ran : s.visit S pid change = some after)
    (written : ∀ t, after.txs pid = some t → ∀ row ∈ t.writes, P row) : Throughout S P after := by
  obtain ⟨t,scan,k,rest,row,running,scanning,_,seen,_,_,rfl⟩ := visit_parts ran
  have fits : P row := all.visible running row (List.mem_of_find?_eq_some seen)
  refine all.changed rfl rfl (fun changed same => written changed
    ((Function.update_self ..).trans same)) ?_
  rintro changed next same scanned hit member
  cases same
  have older := all.found pid t scan running scanning
  have known : hit = row ∨ hit ∈ scan.hits := by
    unfold Tx.visited at scanned
    split at scanned
    · split at scanned
      all_goals
        cases scanned
        exact List.mem_cons.mp member
    · cases scanned
      exact .inr member
  rcases known with rfl | earlier
  · exact fits
  · exact older hit earlier

theorem visit_written (all : Throughout S P s)
    (keeps : ∀ f, change = some f → ∀ row, P row → P (f row))
    (ran : s.visit S pid change = some after) :
    ∀ t, after.txs pid = some t → ∀ row ∈ t.writes, P row := by
  obtain ⟨t,scan,k,rest,row,running,scanning,_,seen,_,_,rfl⟩ := visit_parts ran
  have fits : P row := all.visible running row (List.mem_of_find?_eq_some seen)
  have older := all.written pid t running
  intro changed same version member
  cases (Function.update_self ..).symm.trans same
  have frame : (t.lock S ((s.committed S).find? (S.key · = k)) s.now).writes = t.writes :=
    (lock_frame t _ _).1
  unfold Tx.visited at member
  split at member
  · cases change with
    | none => exact older version (frame ▸ member)
    | some f =>
        rcases mem_put.mp member with rfl | ⟨wrote,_⟩
        · exact keeps f rfl row fits
        · exact older version (frame ▸ wrote)
  · exact older version (frame ▸ member)

theorem insert_throughout {make : Nat → Row} {row : Row} (all : Throughout S P s)
    (ran : s.insert S pid make = some (after,row))
    (written : ∀ t, after.txs pid = some t → ∀ row ∈ t.writes, P row) : Throughout S P after := by
  obtain ⟨t,running,idle,_,_,_,rfl⟩ := insert_parts ran
  refine all.changed rfl rfl (fun changed same => written changed
    ((Function.update_self ..).trans same)) ?_
  rintro changed scan same scanning
  cases same
  rw [show (t.put S row).scan = t.scan from rfl,idle] at scanning
  cases scanning

theorem insert_written {make : Nat → Row} {row : Row} (all : Throughout S P s)
    (fits : ∀ serial, P (make serial)) (ran : s.insert S pid make = some (after,row)) :
    ∀ t, after.txs pid = some t → ∀ row ∈ t.writes, P row := by
  obtain ⟨t,running,_,rfl,_,_,rfl⟩ := insert_parts ran
  intro changed same version member
  cases (Function.update_self ..).symm.trans same
  rcases mem_put.mp member with rfl | ⟨wrote,_⟩
  · exact fits _
  · exact all.written pid t running version wrote

end RestApi.RowStore
