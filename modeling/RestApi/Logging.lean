import Mathlib.Data.List.Basic

namespace RestApi.Log

-- A log argument, by the types the adapters and slog tell apart. `isNil` is a nil
-- pointer behind an error; `attrs` is a []slog.Attr or a slog.Value of kind group;
-- `logValuer` is a value of its own type that slog resolves to another.
mutual
inductive Any where
  | nil
  | string (text : String)
  | int (n : Int)
  | int64 (n : Int)
  | int32 (n : Int)
  | float64 (bits : UInt64)
  | float32 (bits : UInt32)
  | bool (b : Bool)
  | error (message : String) (isNil : Bool)
  | bytes (data : List UInt8)
  | group (key : String) (attrs : List Any)
  | attr (attr : Attr)
  | attrs (attrs : List Attr)
  | source (file : String) (line : Nat)
  | logValuer (own resolved : Any)
  | other (type shown : String)

inductive Attr where
  | mk (key : String) (value : Any)
end

-- A field as it is emitted, its value as the backend writes it.
inductive Field where
  | leaf (name value : String)
  | dict (name : String) (fields : List Field)

-- How the libraries write a value: zerolog by the method for its type, slog's
-- handler by its kind. `text` is slog.Value.String.
structure Renderers where
  zerolog : Any → String
  slog : Any → String
  text : Any → String
  toLower : String → String

section Zerolog
variable (lib : Renderers)

-- zerolog.ErrorFieldName
def errorFieldName : String := "error"

-- AnErr of an event or a context; a nil error adds nothing.
def anErr (key : String) (value : Any) (isNil : Bool) : List Field :=
  if isNil then [] else [.leaf key (lib.zerolog value)]

-- The type an adapter sees.
def Any.own : Any → Any
  | .logValuer own _ => own
  | value => value

-- Every other type is attached as it is, under its key. Err knows no key.
def addEventField (key : String) (value : Any) : List Field := match value.own with
  | .error _ isNil => anErr lib errorFieldName value isNil
  | _ => [.leaf key (lib.zerolog value)]

def addContextField (key : String) (value : Any) : List Field := match value.own with
  | .error _ isNil => anErr lib key value isNil
  | _ => [.leaf key (lib.zerolog value)]

def buildDict : List Any → List Field
  | [] => []
  | .group key attrs :: rest => .dict key (buildDict attrs) :: buildDict rest
  | .string key :: value :: rest => addEventField lib key value ++ buildDict rest
  | [.string _] => []
  | _ :: rest => buildDict rest

-- The loop of addFields and of With, with what they do with a pair.
def scanArgs (addField : String → Any → List Field) : List Any → List Field
  | [] => []
  | .group key attrs :: rest => .dict key (buildDict lib attrs) :: scanArgs addField rest
  | .string key :: value :: rest => addField key value ++ scanArgs addField rest
  | [.string _] => []
  | _ :: rest => scanArgs addField rest

def addFields (args : List Any) : List Field := scanArgs lib (addEventField lib) args
def withFields (args : List Any) : List Field := scanArgs lib (addContextField lib) args

end Zerolog

section Slog
variable (lib : Renderers)

def Attr.isEmptyGroup : Attr → Bool
  | ⟨_,.attrs []⟩ => true
  | _ => false

-- slog.GroupValue leaves out the empty groups among its attributes.
def groupValue (attrs : List Attr) : Any := .attrs (attrs.filter fun a => !a.isEmptyGroup)

def slogAny (key : String) : Any → Attr
  | .attrs attrs => ⟨key,groupValue attrs⟩
  | value => ⟨key,value⟩

def normalizeSlogArgs : List Any → List Attr
  | [] => []
  | .group key attrs :: rest => ⟨key,groupValue (normalizeSlogArgs attrs)⟩ :: normalizeSlogArgs rest
  | .attr attr :: rest => attr :: normalizeSlogArgs rest
  | .string key :: value :: rest => slogAny key value :: normalizeSlogArgs rest
  | [.string _] => []
  | v :: rest => slogAny "value" v :: normalizeSlogArgs rest

-- The ReplaceAttr of NewSlogAdapter, for the attributes of a record at any depth.
def replaceAttr (key : String) (value : Any) : String × Any :=
  let key := if key = "msg" then "message" else key
  let value := if key = "level" then .string (lib.toLower (lib.text value)) else value
  let key := if key = "time" then "timestamp" else key
  if key = "source" then
    match value with
    | .source file line => (key,.string (file ++ ":" ++ toString line))
    | value => (key,value)
  else (key,value)

def Any.isNil : Any → Bool
  | .nil => true
  | _ => false

-- An attribute without key and value is left out.
def emitLeaf (key : String) (value : Any) : List Field :=
  let replaced := replaceAttr lib key value
  if replaced.1 = "" && replaced.2.isNil then [] else [.leaf replaced.1 (lib.slog replaced.2)]

-- A group in which nothing is emitted is left out, one without a key is inlined.
def emitGroup (key : String) (fields : List Field) : List Field :=
  if fields.isEmpty then [] else if key = "" then fields else [.dict key fields]

-- The handler resolves a value before it looks at its kind.
mutual
def emitValue (key : String) : Any → List Field
  | .attrs attrs => emitGroup key (emitAttrs attrs)
  | .logValuer _ resolved => emitValue key resolved
  | value => emitLeaf lib key value

def emitAttr : Attr → List Field
  | ⟨key,value⟩ => emitValue key value

def emitAttrs : List Attr → List Field
  | [] => []
  | attr :: rest => emitAttr attr ++ emitAttrs rest
end

-- Record.Add skips empty groups as well.
def slogFields (args : List Any) : List Field :=
  emitAttrs lib ((normalizeSlogArgs args).filter fun a => !a.isEmptyGroup)

end Slog

section Agreement
variable {lib : Renderers}

theorem emitAttr_mk (key : String) (value : Any) :
    emitAttr lib ⟨key,value⟩ = emitValue lib key value := by
  rw [emitAttr]

theorem emitAttr_empty {attr : Attr}
    (empty : attr.isEmptyGroup = true) : emitAttr lib attr = [] := by
  unfold Attr.isEmptyGroup at empty
  split at empty
  · rw [emitAttr,emitValue,emitAttrs]
    rfl
  · cases empty

-- Leaving out empty groups early changes nothing: the handler emits nothing for them.
theorem emitAttrs_filter (attrs : List Attr) :
    emitAttrs lib (attrs.filter fun a => !a.isEmptyGroup) = emitAttrs lib attrs := by
  induction attrs with
  | nil => rfl
  | cons attr rest ih =>
      cases empty : attr.isEmptyGroup with
      | true =>
          rw [List.filter_cons_of_neg (by simp [empty]),emitAttrs,emitAttr_empty empty,ih,
            List.nil_append]
      | false => rw [List.filter_cons_of_pos (by simp [empty]),emitAttrs,emitAttrs,ih]

theorem emitValue_group (key : String) (attrs : List Attr) :
    emitValue lib key (groupValue attrs) = emitGroup key (emitAttrs lib attrs) := by
  rw [groupValue,emitValue,emitAttrs_filter]

theorem emitAttr_any (key : String) (value : Any) :
    emitAttr lib (slogAny key value) = emitValue lib key value := by
  unfold slogAny
  split
  · rw [emitAttr_mk,emitValue_group,emitValue]
  · rw [emitAttr_mk]

-- The arguments as all the loops take them apart; a last key without a value is skipped.
inductive Entry where
  | pair (key : String) (value : Any)
  | group (key : String) (attrs : List Any)
  | stray (value : Any)

def entries : List Any → List Entry
  | [] => []
  | .group key attrs :: rest => .group key attrs :: entries rest
  | .string key :: value :: rest => .pair key value :: entries rest
  | [.string _] => []
  | value :: rest => .stray value :: entries rest

def zeroEntry (lib : Renderers) (addField : String → Any → List Field) : Entry → List Field
  | .pair key value => addField key value
  | .group key attrs => [.dict key (buildDict lib attrs)]
  | .stray _ => []

def emitStray (lib : Renderers) : Any → List Field
  | .attr attr => emitAttr lib attr
  | value => emitValue lib "value" value

def slogEntry (lib : Renderers) : Entry → List Field
  | .pair key value => emitValue lib key value
  | .group key attrs => emitGroup key (emitAttrs lib (normalizeSlogArgs attrs))
  | .stray value => emitStray lib value

theorem buildDict_entries (args : List Any) :
    buildDict lib args = (entries args).flatMap (zeroEntry lib (addEventField lib)) := by
  fun_induction entries args with
  | case1 => simp [buildDict]
  | case2 key attrs rest ih => simp [buildDict,zeroEntry,ih]
  | case3 key value rest ih => simp [buildDict,zeroEntry,ih]
  | case4 key => simp [buildDict]
  | case5 value rest group pair last ih => rw [buildDict,ih] <;> first | rfl | assumption

theorem scanArgs_entries (addField : String → Any → List Field) (args : List Any) :
    scanArgs lib addField args = (entries args).flatMap (zeroEntry lib addField) := by
  fun_induction entries args with
  | case1 => simp [scanArgs]
  | case2 key attrs rest ih => simp [scanArgs,zeroEntry,ih]
  | case3 key value rest ih => simp [scanArgs,zeroEntry,ih]
  | case4 key => simp [scanArgs]
  | case5 value rest group pair last ih => rw [scanArgs,ih] <;> first | rfl | assumption

theorem normalizeSlogArgs_entries (args : List Any) :
    emitAttrs lib (normalizeSlogArgs args) = (entries args).flatMap (slogEntry lib) := by
  fun_induction entries args with
  | case1 => simp [normalizeSlogArgs,emitAttrs]
  | case2 key attrs rest ih =>
      simp [normalizeSlogArgs,emitAttrs,emitAttr_mk,emitValue_group,slogEntry,ih]
  | case3 key value rest ih => simp [normalizeSlogArgs,emitAttrs,emitAttr_any,slogEntry,ih]
  | case4 key => simp [normalizeSlogArgs,emitAttrs]
  | case5 value rest group pair last ih =>
      cases value with
      | group key attrs => exact absurd rfl (group key attrs)
      | string key =>
          cases rest with
          | nil => exact (last key rfl rfl).elim
          | cons value rest => exact (pair key value rest rfl rfl).elim
      | _ => simp [normalizeSlogArgs,emitAttrs,emitAttr_any,slogEntry,emitStray,ih]

-- What slog resolves a value to.
def Any.resolved : Any → Any
  | .logValuer _ resolved => resolved.resolved
  | value => value

def Any.isGroup : Any → Bool
  | .attrs _ => true
  | _ => false

-- A pair for which slog has one field: its value is no group of slog's own, and it is not
-- nothing under no key.
def Ordinary (key : String) (value : Any) : Prop :=
  value.resolved.isGroup = false ∧ (key = "" → value.resolved.isNil = false)

-- The name is what both backends make of the key.
def Named (key : String) (value : Any) : Prop := match value.own with
  | .error _ isNil => isNil = false ∧ key = errorFieldName
  | _ => key ≠ "msg" ∧ key ≠ "time"

-- And the libraries write the value alike, once ReplaceAttr has seen it.
def PlainPair (lib : Renderers) (key : String) (value : Any) : Prop :=
  Ordinary key value ∧ Named key value ∧
    lib.zerolog value = lib.slog (replaceAttr lib key value.resolved).2

-- Nothing in it for slog to emit.
mutual
def Any.hollow (key : String) : Any → Bool
  | .attrs attrs => hollowAttrs attrs
  | .logValuer _ resolved => resolved.hollow key
  | .nil => key = ""
  | _ => false

def Attr.hollow : Attr → Bool
  | ⟨key,value⟩ => value.hollow key

def hollowAttrs : List Attr → Bool
  | [] => true
  | attr :: rest => attr.hollow && hollowAttrs rest
end

def Any.silent : Any → Bool
  | .attr field => field.hollow
  | value => value.hollow "value"

def Entry.isStray : Entry → Bool
  | .stray _ => true
  | _ => false

-- Every pair is plain, every stray value silent, and every group has a key, is plain
-- itself and has more than stray values.
inductive Plain (lib : Renderers) : List Any → Prop where
  | mk (pairs : ∀ key value, .pair key value ∈ entries args → PlainPair lib key value)
      (strays : ∀ value, .stray value ∈ entries args → value.silent = true)
      (named : ∀ key attrs, .group key attrs ∈ entries args → key ≠ "")
      (filled : ∀ key attrs, .group key attrs ∈ entries args →
        ∃ entry ∈ entries attrs, entry.isStray = false)
      (inside : ∀ key attrs, .group key attrs ∈ entries args → Plain lib attrs) : Plain lib args

-- Lists without slog's own groups for values, and without nothing under no key, at any depth.
inductive Tame : List Any → Prop where
  | mk (pairs : ∀ key value, .pair key value ∈ entries args → Ordinary key value)
      (inside : ∀ key attrs, .group key attrs ∈ entries args → Tame attrs) : Tame args

theorem replaceAttr_key (key : String) (value : Any) : (replaceAttr lib key value).1 =
    if key = "msg" then "message" else if key = "time" then "timestamp" else key := by
  unfold replaceAttr
  dsimp only
  split_ifs <;> first | rfl | (split <;> rfl) | simp_all

theorem replaceAttr_blank (value : Any) : replaceAttr lib "" value = ("",value) := rfl

theorem replaceAttr_kept (lib : Renderers) (key : String) (value : Any) :
    (replaceAttr lib key value).1 = key ↔ key ≠ "msg" ∧ key ≠ "time" := by
  rw [replaceAttr_key]
  by_cases message : key = "msg"
  · subst message
    simp
  · by_cases stamp : key = "time"
    · subst stamp
      simp
    · simp [message,stamp]

theorem replaceAttr_error (lib : Renderers) (key : String) (value : Any) :
    (replaceAttr lib key value).1 = errorFieldName ↔ key = errorFieldName := by
  rw [replaceAttr_key]
  unfold errorFieldName
  by_cases message : key = "msg"
  · subst message
    simp
  · by_cases stamp : key = "time"
    · subst stamp
      simp
    · simp [message,stamp]

theorem emitLeaf_nil (key : String) (value : Any) :
    emitLeaf lib key value = [] ↔ key = "" ∧ value.isNil = true := by
  have blank : (replaceAttr lib key value).1 = "" ↔ key = "" := by
    rw [replaceAttr_key]
    split_ifs with message stamp
    · simp [message]
    · simp [stamp]
    · rfl
  unfold emitLeaf
  by_cases noKey : key = ""
  · subst noKey
    simp [replaceAttr_blank]
  · simp [blank,noKey]

theorem emitValue_resolved (key : String) (value : Any) :
    emitValue lib key value = emitValue lib key value.resolved := by
  fun_induction Any.resolved value with
  | case1 own resolved ih => rw [emitValue,ih]
  | case2 value plain => rfl

theorem emitValue_leaf (single : value.isGroup = false)
    (final : ∀ own resolved, value ≠ .logValuer own resolved) :
    emitValue lib key value = emitLeaf lib key value := by
  cases value with
  | attrs attrs => cases single
  | logValuer own resolved => exact absurd rfl (final own resolved)
  | _ => rw [emitValue] <;> nofun

theorem resolved_final (value : Any) :
    ∀ own resolved, value.resolved ≠ .logValuer own resolved := by
  fun_induction Any.resolved value with
  | case1 own resolved ih => exact ih
  | case2 value plain => exact fun own resolved same => plain own resolved same

theorem emitValue_ordinary (ordinary : Ordinary key value) :
    emitValue lib key value =
    [.leaf (replaceAttr lib key value.resolved).1
      (lib.slog (replaceAttr lib key value.resolved).2)] := by
  have shown : emitLeaf lib key value.resolved ≠ [] := by
    rw [ne_eq,emitLeaf_nil]
    rintro ⟨blank,nothing⟩
    cases nothing.symm.trans (ordinary.2 blank)
  rw [emitValue_resolved,emitValue_leaf ordinary.1 (resolved_final value)]
  unfold emitLeaf at shown ⊢
  dsimp only at shown ⊢
  split
  · rename_i left
    exact absurd (if_pos left) shown
  · rfl

-- For an ordinary pair the backends agree on exactly the plain ones.
theorem pair_agrees (ordinary : Ordinary key value) :
    addEventField lib key value = emitValue lib key value ↔ PlainPair lib key value := by
  rw [emitValue_ordinary ordinary]
  unfold PlainPair Named addEventField anErr
  cases value.own with
  | error message isNil =>
      cases isNil with
      | true => simp
      | false => simp [ordinary,← replaceAttr_error lib key value.resolved,eq_comm]
  | _ => simp [ordinary,← replaceAttr_kept lib key value.resolved,eq_comm]

theorem pair_length (ordinary : Ordinary key value) :
    (addEventField lib key value).length ≤ (emitValue lib key value).length := by
  rw [emitValue_ordinary ordinary]
  unfold addEventField anErr
  split
  · split <;> simp
  · simp

theorem emitGroup_nil : emitGroup key fields = [] ↔ fields = [] := by
  cases fields with
  | nil => simp [emitGroup]
  | cons first more =>
      unfold emitGroup
      split_ifs with empty blank
      · cases empty
      · simp
      · simp

mutual
theorem emitValue_hollow (key : String) (value : Any) :
    emitValue lib key value = [] ↔ value.hollow key = true := by
  cases value with
  | attrs attrs => rw [emitValue,Any.hollow,emitGroup_nil,emitAttrs_hollow attrs]
  | logValuer own resolved => rw [emitValue,Any.hollow,emitValue_hollow key resolved]
  | nil => simp [emitValue,Any.hollow,emitLeaf_nil,Any.isNil]
  | _ => simp [emitValue,Any.hollow,emitLeaf_nil,Any.isNil]

theorem emitAttr_hollow (attr : Attr) : emitAttr lib attr = [] ↔ attr.hollow = true := by
  cases attr with
  | mk key value => rw [emitAttr,Attr.hollow,emitValue_hollow key value]

theorem emitAttrs_hollow (attrs : List Attr) :
    emitAttrs lib attrs = [] ↔ hollowAttrs attrs = true := by
  cases attrs with
  | nil => simp [emitAttrs,hollowAttrs]
  | cons attr rest =>
      rw [emitAttrs,hollowAttrs,List.append_eq_nil_iff,Bool.and_eq_true_iff,emitAttr_hollow attr,
        emitAttrs_hollow rest]
end

theorem emitStray_silent (value : Any) : emitStray lib value = [] ↔ value.silent = true := by
  cases value with
  | attr field => exact emitAttr_hollow field
  | _ => exact emitValue_hollow "value" _

-- Fields in which every group has a name and something in it, at any depth.
inductive Full : List Field → Prop where
  | mk (named : ∀ name inner, .dict name inner ∈ fields → name ≠ "")
      (filled : ∀ name inner, .dict name inner ∈ fields → inner ≠ [])
      (inside : ∀ name inner, .dict name inner ∈ fields → Full inner) : Full fields

theorem Full.nil : Full [] := .mk nofun nofun nofun

theorem Full.leaf : Full [.leaf name value] := by
  refine .mk ?_ ?_ ?_ <;>
  · intro name inner member
    cases List.mem_singleton.mp member

theorem Full.append (one : Full xs) (two : Full ys) : Full (xs ++ ys) := by
  obtain ⟨named,filled,inside⟩ := one
  obtain ⟨named',filled',inside'⟩ := two
  refine .mk (fun name inner member => ?_) (fun name inner member => ?_)
    (fun name inner member => ?_)
  · exact (List.mem_append.mp member).elim (named name inner) (named' name inner)
  · exact (List.mem_append.mp member).elim (filled name inner) (filled' name inner)
  · exact (List.mem_append.mp member).elim (inside name inner) (inside' name inner)

theorem Full.group (inner : Full fields) : Full (emitGroup key fields) := by
  unfold emitGroup
  split_ifs with empty blank
  · exact .nil
  · exact inner
  · refine .mk ?_ ?_ ?_ <;>
    · intro name inside member
      cases List.mem_singleton.mp member
      first | exact blank | exact inner | exact fun none' => empty (none' ▸ rfl)

mutual
theorem emitValue_full (key : String) (value : Any) : Full (emitValue lib key value) := by
  have leaf : Full (emitLeaf lib key value) := by
    unfold emitLeaf
    dsimp only
    split
    · exact .nil
    · exact .leaf
  cases value with
  | attrs attrs =>
      rw [emitValue]
      exact .group (emitAttrs_full attrs)
  | logValuer own resolved =>
      rw [emitValue]
      exact emitValue_full key resolved
  | _ =>
      rw [emitValue]
      · exact leaf
      all_goals nofun

theorem emitAttrs_full (attrs : List Attr) : Full (emitAttrs lib attrs) := by
  cases attrs with
  | nil =>
      rw [emitAttrs]
      exact .nil
  | cons attr rest =>
      cases attr with
      | mk key value =>
          rw [emitAttrs,emitAttr_mk]
          exact (emitValue_full key value).append (emitAttrs_full rest)
end

theorem flatMap_length {f g : α → List β} {xs : List α}
    (each : ∀ x ∈ xs, (f x).length ≤ (g x).length) :
    (xs.flatMap f).length ≤ (xs.flatMap g).length := by
  induction xs with
  | nil => simp
  | cons x rest ih =>
      have first := each x List.mem_cons_self
      have later := ih fun y member => each y (List.mem_cons_of_mem x member)
      simp only [List.flatMap_cons,List.length_append]
      omega

-- Where no part of one list is longer than that of the other, equal lists have equal parts.
theorem flatMap_inj {f g : α → List β} {xs : List α} (each : ∀ x ∈ xs, (f x).length ≤ (g x).length)
    (same : xs.flatMap f = xs.flatMap g) : ∀ x ∈ xs, f x = g x := by
  induction xs with
  | nil => nofun
  | cons x rest ih =>
      have first := each x List.mem_cons_self
      have others : ∀ y ∈ rest, (f y).length ≤ (g y).length :=
        fun y member => each y (List.mem_cons_of_mem x member)
      have later := flatMap_length others
      rw [List.flatMap_cons,List.flatMap_cons] at same
      have lengths := congrArg List.length same
      simp only [List.length_append] at lengths
      obtain ⟨head,tail⟩ := List.append_inj same (by omega)
      intro y member
      rcases List.mem_cons.mp member with rfl | inside
      · exact head
      · exact ih others tail y inside

theorem dict_mem (lib : Renderers) (member : .group key attrs ∈ entries args) :
    .dict key (buildDict lib attrs) ∈ buildDict lib args := by
  rw [buildDict_entries args]
  exact List.mem_flatMap.mpr ⟨_,member,List.mem_singleton_self _⟩

-- Unless zerolog has an empty group, slog has no fewer fields.
theorem entry_length (tame : Tame args) (full : Full (buildDict lib args)) :
    ∀ entry ∈ entries args, (zeroEntry lib (addEventField lib) entry).length ≤
      (slogEntry lib entry).length := by
  induction tame with
  | @mk args pairs inside ih =>
      obtain ⟨named,filled,full⟩ := full
      intro entry member
      cases entry with
      | stray value => exact Nat.zero_le _
      | pair key value => exact pair_length (pairs key value member)
      | group key attrs =>
          have there := dict_mem lib member
          have more := flatMap_length (ih key attrs member (full key _ there))
          rw [← buildDict_entries,← normalizeSlogArgs_entries] at more
          have some' := List.length_pos_iff.mpr (filled key _ there)
          have shown : emitGroup key (emitAttrs lib (normalizeSlogArgs attrs)) ≠ [] := by
            rw [ne_eq,emitGroup_nil,← List.length_eq_zero_iff]
            omega
          exact List.length_pos_iff.mpr shown

theorem agrees_plain (tame : Tame args)
    (same : buildDict lib args = emitAttrs lib (normalizeSlogArgs args)) : Plain lib args := by
  induction tame with
  | @mk args pairs inside ih =>
      have full : Full (buildDict lib args) := same ▸ emitAttrs_full _
      have lengths := entry_length (.mk pairs inside) full
      rw [buildDict_entries,normalizeSlogArgs_entries] at same
      have each := flatMap_inj lengths same
      obtain ⟨named,filled,_⟩ := full
      refine .mk ?_ ?_ ?_ ?_ ?_
      · exact fun key value member => (pair_agrees (pairs key value member)).mp (each _ member)
      · exact fun value member => (emitStray_silent value).mp (each _ member).symm
      · exact fun key attrs member => named key _ (dict_mem lib member)
      · intro key attrs member
        by_contra only
        have nothing : buildDict lib attrs = [] := by
          rw [buildDict_entries,List.flatMap_eq_nil_iff]
          intro entry there
          cases entry with
          | stray value => rfl
          | _ => exact absurd ⟨_,there,rfl⟩ only
        exact filled key _ (dict_mem lib member) nothing
      · intro key attrs member
        apply ih key attrs member
        have group := each _ member
        change [Field.dict key _] = emitGroup key _ at group
        unfold emitGroup at group
        rw [if_neg (named key _ (dict_mem lib member))] at group
        split at group
        · cases group
        · simpa using group

theorem plainPair_shown (plain : PlainPair lib key value) : addEventField lib key value ≠ [] := by
  rw [(pair_agrees plain.1).mpr plain,emitValue_ordinary plain.1]
  exact List.cons_ne_nil _ _

-- A derived logger names an error by its key, an event by the key for errors.
theorem plainPair_context (plain : PlainPair lib key value) :
    addContextField lib key value = addEventField lib key value := by
  obtain ⟨_,named,_⟩ := plain
  unfold Named at named
  unfold addContextField addEventField
  split at named
  · rw [named.2]
  · rfl

theorem plain_agrees (plain : Plain lib args) :
    buildDict lib args = emitAttrs lib (normalizeSlogArgs args) := by
  induction plain with
  | @mk args pairs strays named filled inside ih =>
      rw [buildDict_entries,normalizeSlogArgs_entries]
      apply List.flatMap_congr
      intro entry member
      cases entry with
      | pair key value =>
          exact (pair_agrees (pairs key value member).1).mpr (pairs key value member)
      | stray value => exact ((emitStray_silent value).mpr (strays value member)).symm
      | group key attrs =>
          have shown : buildDict lib attrs ≠ [] := by
            obtain ⟨entry,there,kept⟩ := filled key attrs member
            obtain ⟨pairs,_,_,_,_⟩ := inside key attrs member
            rw [buildDict_entries,ne_eq,List.flatMap_eq_nil_iff]
            intro nothing
            have hidden := nothing entry there
            cases entry with
            | pair key value => exact plainPair_shown (pairs key value there) hidden
            | group key attrs => cases hidden
            | stray value => cases kept
          change [Field.dict key _] = emitGroup key _
          rw [← ih key attrs member,emitGroup,if_neg (named key attrs member),
            if_neg (by simpa using shown)]

-- The two backends emit the same tree, and a derived zerolog logger the same fields as an
-- event, exactly for the plain lists.
theorem backends_agree (lib : Renderers) (tame : Tame args) :
    addFields lib args = slogFields lib args ∧ withFields lib args = addFields lib args ↔
      Plain lib args := by
  have events : addFields lib args = buildDict lib args := by
    rw [addFields,scanArgs_entries,buildDict_entries]
  have attrs : slogFields lib args = emitAttrs lib (normalizeSlogArgs args) := by
    rw [slogFields,emitAttrs_filter]
  rw [events,attrs]
  constructor
  · exact fun agree => agrees_plain tame agree.1
  · intro plain
    refine ⟨plain_agrees plain,?_⟩
    obtain ⟨pairs,_,_,_,_⟩ := plain
    rw [withFields,scanArgs_entries,buildDict_entries]
    apply List.flatMap_congr
    intro entry member
    cases entry with
    | pair key value => exact plainPair_context (pairs key value member)
    | _ => rfl

end Agreement

namespace Controls

-- Enough of both libraries for the values here.
def shown : Any → String
  | .string text => "\"" ++ text ++ "\""
  | .int n => toString n
  | .error message _ => "\"" ++ message ++ "\""
  | _ => "null"

def renderers : Renderers := ⟨shown,shown,shown,id⟩

def failed : Any := .error "boom" false

def inner : List Any := [.string "error",failed,.string "trailing"]

def call : List Any := [.string "id",.int 7,.group "call" inner]

theorem call_entries : entries call = [.pair "id" (.int 7),.group "call" inner] := by
  simp [call,entries]

theorem inner_entries : entries inner = [.pair "error" failed] := by simp [inner,entries,failed]

theorem id_plain : PlainPair renderers "id" (.int 7) := by
  refine ⟨⟨rfl,fun _ => rfl⟩,?_,rfl⟩
  simp [Named,Any.own]

theorem error_plain : PlainPair renderers "error" failed := ⟨⟨rfl,fun _ => rfl⟩,⟨rfl,rfl⟩,rfl⟩

theorem inner_plain : Plain renderers inner := by
  refine .mk ?_ ?_ ?_ ?_ ?_ <;> simp [inner_entries,error_plain]

theorem call_plain : Plain renderers call := by
  refine .mk ?_ ?_ ?_ ?_ ?_ <;> simp [call_entries,inner_entries,id_plain,inner_plain,Entry.isStray]

theorem backends_agree_nested :
    Plain renderers call ∧ addFields renderers call = slogFields renderers call := by
  have inside : Tame inner := by
    refine .mk ?_ ?_ <;> simp [inner_entries,error_plain.1]
  have tame : Tame call := by
    refine .mk ?_ ?_ <;> simp [call_entries,id_plain.1,inside]
  exact ⟨call_plain,((backends_agree renderers tame).mpr call_plain).1⟩

-- zerolog renames the error of an event, drops a stray value and keeps an empty
-- group; slog renames msg.
theorem backends_differ :
    (addFields renderers [.string "cause",failed] ≠ slogFields renderers [.string "cause",failed] ∧
      withFields renderers [.string "cause",failed] ≠ addFields renderers
        [.string "cause",failed]) ∧
    addFields renderers [.int 7] ≠ slogFields renderers [.int 7] ∧
    addFields renderers [.group "call" []] ≠ slogFields renderers [.group "call" []] ∧
    addFields renderers [.string "msg",.string "hello"] ≠ slogFields renderers
      [.string "msg",.string "hello"] := by
  have zero (args : List Any) : addFields renderers args = (entries args).flatMap
    (zeroEntry renderers (addEventField renderers)) := scanArgs_entries _ args
  have derived (args : List Any) : withFields renderers args = (entries args).flatMap
    (zeroEntry renderers (addContextField renderers)) := scanArgs_entries _ args
  have slog (args : List Any) : slogFields renderers args = (entries args).flatMap
      (slogEntry renderers) := by
    rw [slogFields,emitAttrs_filter,normalizeSlogArgs_entries]
  simp only [zero,derived,slog]
  refine ⟨⟨?_,?_⟩,?_,?_,?_⟩
  · simp [entries,zeroEntry,slogEntry,failed,addEventField,Any.own,anErr,emitValue,emitLeaf,
      replaceAttr,errorFieldName]
  · simp [entries,zeroEntry,failed,addEventField,addContextField,Any.own,anErr,errorFieldName]
  · simp [entries,zeroEntry,slogEntry,emitStray,emitValue,emitLeaf,replaceAttr]
  · simp [entries,zeroEntry,slogEntry,emitGroup,normalizeSlogArgs,emitAttrs]
  · simp [entries,zeroEntry,slogEntry,addEventField,Any.own,emitValue,emitLeaf,replaceAttr]

end Controls
end RestApi.Log
