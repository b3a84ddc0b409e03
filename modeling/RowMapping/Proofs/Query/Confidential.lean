/-
What confidential arguments do not show.

Two arguments are alike if they are the same but for what stands inside confidential ones. An
application that makes a query from alike arguments, with placeholders, with named parameters or
piece by piece, gets alike queries, or the same refusal. All that is shown of alike queries is
the same: their arguments, their texts, and every error that is raised for them.

The texts of errors go through the text of the query, and that goes through the texts of its
arguments. So there is a single induction, over the arguments.
-/
import RowMapping.Database.Basic
import RowMapping.Query.Builder
import RowMapping.Query.Named
import RowMapping.Proofs.Transaction.Action
import Mathlib.Data.List.Forall2

set_option autoImplicit false

namespace RowMapping

variable {α : Type}

/-! ## Outcomes -/

/-- Two outcomes that cannot be told apart: the same error, or related results. -/
inductive OutcomesAgree {β γ : Type} (R : β → γ → Prop) : Except Error β → Except Error γ → Prop
  | error (e : Error) : OutcomesAgree R (.error e) (.error e)
  | ok {x : β} {y : γ} (h : R x y) : OutcomesAgree R (.ok x) (.ok y)

namespace OutcomesAgree

variable {β γ δ ε : Type} {R : β → γ → Prop} {S : δ → ε → Prop}

theorem imp {S : β → γ → Prop} (hRS : ∀ x y, R x y → S x y) {a : Except Error β}
    {b : Except Error γ} (h : OutcomesAgree R a b) : OutcomesAgree S a b := by
  cases h with
  | error e => exact .error e
  | ok hxy => exact .ok (hRS _ _ hxy)

theorem map {f : β → δ} {g : γ → ε} (hfg : ∀ x y, R x y → S (f x) (g y)) {a : Except Error β}
    {b : Except Error γ} (h : OutcomesAgree R a b) : OutcomesAgree S (a.map f) (b.map g) := by
  cases h with
  | error e => exact .error e
  | ok hxy => exact .ok (hfg _ _ hxy)

/-- Results in place of which something else is taken when there are none. -/
theorem getD {a : Except Error β} {b : Except Error γ} (h : OutcomesAgree R a b) {x : β} {y : γ}
    (hxy : R x y) : R (a.toOption.getD x) (b.toOption.getD y) := by
  cases h with
  | error e => exact hxy
  | ok hresult => exact hresult

theorem bind {a : Except Error β} {b : Except Error γ} (h : OutcomesAgree R a b)
    {f : β → Except Error δ} {g : γ → Except Error ε}
    (hfg : ∀ x y, R x y → OutcomesAgree S (f x) (g y)) :
    OutcomesAgree S (a >>= f) (b >>= g) := by
  cases h with
  | error e => exact .error e
  | ok hxy => exact hfg _ _ hxy

/-- Functions whose outcomes agree item by item agree on a list. -/
theorem mapM {f : δ → Except Error β} {g : δ → Except Error γ}
    (h : ∀ x, OutcomesAgree R (f x) (g x)) (xs : List δ) :
    OutcomesAgree (List.Forall₂ R) (xs.mapM f) (xs.mapM g) := by
  induction xs with
  | nil => exact .ok .nil
  | cons x rest ih =>
    rw [List.mapM_cons, List.mapM_cons]
    refine (h x).bind fun y z hyz => ih.bind fun ys zs hrest => ?_
    exact .ok (.cons hyz hrest)

end OutcomesAgree

/-! ## Arguments -/

namespace Argument

/-- The same arguments, but for what stands inside confidential ones. -/
inductive Alike : Argument α → Argument α → Prop
  | value (v : Value) : Alike (.value v) (.value v)
  | object (x : Object α) (description : String) :
      Alike (.object x description) (.object x description)
  | enumeration (name : String) (ordinal : Int64) :
      Alike (.enumeration name ordinal) (.enumeration name ordinal)
  | array {items items' : List (Argument α)} (h : List.Forall₂ Alike items items') :
      Alike (.array items) (.array items')
  | confidential (inner inner' : Argument α) : Alike (.confidential inner) (.confidential inner')

mutual

/-- Alike arguments are shown as the same text. -/
theorem Alike.display_eq {a b : Argument α} (h : a.Alike b) : a.display = b.display := by
  cases h with
  | value v => rfl
  | object x description => rfl
  | enumeration name ordinal => rfl
  | confidential inner inner' => rfl -- neither argument inside is looked at
  | array h => rw [display, display, displayAll_eq_of_alike h]

theorem displayAll_eq_of_alike {as bs : List (Argument α)} (h : List.Forall₂ Alike as bs) :
    displayAll as = displayAll bs := by
  cases h with
  | nil => rfl
  | cons hfirst hrest =>
    rw [displayAll, displayAll, hfirst.display_eq, displayAll_eq_of_alike hrest]

end

theorem Alike.describe_eq {a b : Argument α} (h : a.Alike b) : a.describe = b.describe := by
  rw [describe, describe, h.display_eq]

/-- What is the same for alike arguments is the same for alike lists of them. -/
theorem map_eq_of_alike {β : Type} {f : Argument α → β} (hf : ∀ {a b}, a.Alike b → f a = f b)
    {as bs : List (Argument α)} (h : List.Forall₂ Alike as bs) : as.map f = bs.map f := by
  induction h with
  | nil => rfl
  | cons hfirst _ ih => rw [List.map_cons, List.map_cons, hf hfirst, ih]

end Argument

/-! ## Queries -/

/-- The same text with alike arguments. -/
structure Query.Alike (q q' : Query α) : Prop where
  sql : q.sql = q'.sql
  arguments : List.Forall₂ Argument.Alike q.arguments q'.arguments

/-- Errors that are reported in the same way. -/
def Error.SameReport (e e' : Error) : Prop := e.code = e'.code ∧ e.message = e'.message

/-- All that is shown of two queries is the same: the arguments, the texts of the queries, and
the errors that are raised for them when the driver fails, by any dialect, and when there are
too few or too many rows. -/
structure Query.ShownAlike (q q' : Query α) : Prop where
  arguments : q.arguments.map Argument.display = q'.arguments.map Argument.display
  descriptions : q.arguments.map Argument.describe = q'.arguments.map Argument.describe
  text : q.display.text = q'.display.text
  converted (d : Dialect α) (source : DriverError) :
    (d.convertError source q.display).SameReport (d.convertError source q'.display)
  failed (source : DriverError) :
    (Error.query source q.display).SameReport (.query source q'.display)
  collided (source : DriverError) :
    (Error.serialization source q.display).SameReport (.serialization source q'.display)
  rolledBack (source : DriverError) :
    (Error.rolledBack source q.display).SameReport (.rolledBack source q'.display)
  empty : (Error.emptyResult q.display).SameReport (.emptyResult q'.display)
  several (count : Nat) :
    (Error.nonUniqueResult count q.display).SameReport (.nonUniqueResult count q'.display)

namespace Query

variable {q q' : Query α}

theorem Alike.display_eq (h : q.Alike q') : q.display = q'.display := by
  rw [display, display, h.sql, Argument.displayAll_eq_of_alike h.arguments]

theorem Alike.shownAlike (h : q.Alike q') : q.ShownAlike q' where
  arguments := Argument.map_eq_of_alike Argument.Alike.display_eq h.arguments
  descriptions := Argument.map_eq_of_alike Argument.Alike.describe_eq h.arguments
  text := congrArg QueryDisplay.text h.display_eq
  converted _ _ := h.display_eq ▸ ⟨rfl, rfl⟩
  failed _ := h.display_eq ▸ ⟨rfl, rfl⟩
  collided _ := h.display_eq ▸ ⟨rfl, rfl⟩
  rolledBack _ := h.display_eq ▸ ⟨rfl, rfl⟩
  empty := h.display_eq ▸ ⟨rfl, rfl⟩
  several _ := h.display_eq ▸ ⟨rfl, rfl⟩

/-- Named parameters whose values are alike give alike queries. -/
theorem named_alike {resolver resolver' : Resolver α}
    (h : ∀ name, OutcomesAgree Argument.Alike (resolver name) (resolver' name)) (sql : String) :
    OutcomesAgree Alike (named sql resolver) (named sql resolver') := by
  unfold named
  -- the text is cut before any name is resolved
  cases NamedSql.segments sql.toList with
  | error cause => exact .error _
  | ok parts =>
    refine (OutcomesAgree.mapM h (NamedSql.names parts)).bind fun as bs hargs => ?_
    exact .ok ⟨rfl, hargs⟩

end Query

/-! ## Queries built piece by piece -/

/-- The same step with alike arguments. -/
inductive BuildingStep.Alike : BuildingStep α → BuildingStep α → Prop
  | append (sql : String) : Alike (.append sql) (.append sql)
  | addArguments {as bs : List (Argument α)} (h : List.Forall₂ Argument.Alike as bs) :
      Alike (.addArguments as) (.addArguments bs)
  | appendWith (sql : String) {as bs : List (Argument α)} (h : List.Forall₂ Argument.Alike as bs) :
      Alike (.appendWith sql as) (.appendWith sql bs)
  | appendQuery {q q' : Query α} (h : q.Alike q') : Alike (.appendQuery q) (.appendQuery q')
  | appendPlaceholders (count : Nat) : Alike (.appendPlaceholders count) (.appendPlaceholders count)
  | appendPlaceholdersFor {as bs : List (Argument α)} (h : List.Forall₂ Argument.Alike as bs) :
      Alike (.appendPlaceholdersFor as) (.appendPlaceholdersFor bs)

namespace QueryBuilder

/-- The same text with alike arguments. -/
structure Alike (b b' : QueryBuilder α) : Prop where
  sql : b.sql = b'.sql
  arguments : List.Forall₂ Argument.Alike b.arguments b'.arguments

namespace Alike

variable {b b' : QueryBuilder α}

theorem append (h : b.Alike b') (sql : String) : (b.append sql).Alike (b'.append sql) where
  sql := congrArg (· ++ sql) h.sql
  arguments := h.arguments

theorem addArguments (h : b.Alike b') {as bs : List (Argument α)}
    (hargs : List.Forall₂ Argument.Alike as bs) : (b.addArguments as).Alike (b'.addArguments bs) where
  sql := h.sql
  arguments := List.rel_append h.arguments hargs

theorem appendPlaceholders (h : b.Alike b') (count : Nat) :
    OutcomesAgree Alike (b.appendPlaceholders count) (b'.appendPlaceholders count) := by
  unfold QueryBuilder.appendPlaceholders
  by_cases hcount : count = 0
  · rw [if_pos hcount, if_pos hcount]
    exact .error _
  · rw [if_neg hcount, if_neg hcount]
    exact .ok (h.append _)

/-- Alike steps take alike builders to alike builders, or are refused alike. -/
theorem perform (h : b.Alike b') {step step' : BuildingStep α} (hstep : step.Alike step') :
    OutcomesAgree Alike (b.perform step) (b'.perform step') := by
  cases hstep with
  | append sql => exact .ok (h.append sql)
  | addArguments hargs => exact .ok (h.addArguments hargs)
  | appendWith sql hargs => exact .ok ((h.append sql).addArguments hargs)
  | @appendQuery q q' hquery =>
    rw [QueryBuilder.perform, QueryBuilder.perform, appendQuery, appendQuery, hquery.sql]
    exact .ok ((h.append q'.sql).addArguments hquery.arguments)
  | appendPlaceholders count => exact h.appendPlaceholders count
  | @appendPlaceholdersFor as bs hargs =>
    -- as many placeholders on both sides
    have hplaceholders := h.appendPlaceholders as.length
    rw [QueryBuilder.perform, QueryBuilder.perform, appendPlaceholdersFor, appendPlaceholdersFor,
      ← hargs.length_eq]
    exact hplaceholders.map fun _ _ happended => happended.addArguments hargs

theorem performAll {steps steps' : List (BuildingStep α)}
    (hsteps : List.Forall₂ BuildingStep.Alike steps steps') (h : b.Alike b') :
    (b.performAll steps).Alike (b'.performAll steps') := by
  induction hsteps generalizing b b' with
  | nil => exact h
  | cons hstep _ ih => exact ih ((h.perform hstep).getD h)

theorem build (h : b.Alike b') : OutcomesAgree Query.Alike b.build b'.build := by
  unfold QueryBuilder.build
  rw [h.sql]
  by_cases hempty : b'.sql.isEmpty = true
  · rw [if_pos hempty, if_pos hempty]
    exact .error _
  · rw [if_neg hempty, if_neg hempty]
    exact .ok ⟨rfl, h.arguments⟩

end Alike

end QueryBuilder

/-! ## All ways to make a query -/

/-- How an application makes a query. -/
inductive QuerySource (α : Type) where
  | positional (sql : String) (arguments : List (Argument α))
  | named (sql : String) (resolver : Resolver α)
  | built (steps : List (BuildingStep α))

namespace QuerySource

/-- The query that is made. -/
def query : QuerySource α → Except Error (Query α)
  | positional sql arguments => .ok { sql, arguments }
  | named sql resolver => Query.named sql resolver
  | built steps => (QueryBuilder.performAll {} steps).build

/-- Made in the same way of alike arguments. -/
inductive Alike : QuerySource α → QuerySource α → Prop
  | positional (sql : String) {as bs : List (Argument α)} (h : List.Forall₂ Argument.Alike as bs) :
      Alike (.positional sql as) (.positional sql bs)
  | named (sql : String) {resolver resolver' : Resolver α}
      (h : ∀ name, OutcomesAgree Argument.Alike (resolver name) (resolver' name)) :
      Alike (.named sql resolver) (.named sql resolver')
  | built {steps steps' : List (BuildingStep α)} (h : List.Forall₂ BuildingStep.Alike steps steps') :
      Alike (.built steps) (.built steps')

theorem Alike.query {s s' : QuerySource α} (h : s.Alike s') :
    OutcomesAgree Query.Alike s.query s'.query := by
  cases h with
  | positional sql hargs => exact .ok ⟨rfl, hargs⟩
  | named sql hresolver => exact Query.named_alike hresolver sql
  | built hsteps => exact (QueryBuilder.Alike.performAll hsteps ⟨rfl, .nil⟩).build

/-- Queries that differ inside confidential arguments only, however they are made, are shown
alike in every way. -/
theorem query_shownAlike {s s' : QuerySource α} (h : s.Alike s') :
    OutcomesAgree Query.ShownAlike s.query s'.query :=
  h.query.imp fun _ _ hquery => hquery.shownAlike

/-- A query for one of several names, of which the last is secret, at an age that is secret. -/
def search (secret : String) (age : Int64) : QuerySource Empty :=
  .built [.append "SELECT 1 FROM t WHERE age = ",
    .appendPlaceholdersFor [.confidential (.value (.integer age))],
    .appendWith " AND name IN (SELECT value FROM json_each(?))"
      [.array [.value (.text "Ann"), .confidential (.value (.text secret))]]]

theorem query_shownAlike_search :
    (search "Bob" 41).Alike (search "Cleo" 7) ∧
      ((search "Bob" 41).query.map (fun q => q.display.text) = .ok
        "SELECT 1 FROM t WHERE age = ? AND name IN (SELECT value FROM json_each(?)) [****, ['Ann', ****]]") ∧
      OutcomesAgree Query.ShownAlike (search "Bob" 41).query (search "Cleo" 7).query := by
  have halike : (search "Bob" 41).Alike (search "Cleo" 7) := by
    refine .built (.cons (.append _) (.cons (.appendPlaceholdersFor ?_)
      (.cons (.appendWith _ ?_) .nil)))
    · exact .cons (.confidential _ _) .nil
    · exact .cons (.array (.cons (.value _) (.cons (.confidential _ _) .nil))) .nil
  exact ⟨halike, by rfl, query_shownAlike halike⟩

end QuerySource

/-! ## Runs of queries -/

/-- A run of a query knows what stands inside its confidential arguments by the answers of the
engine only: if the engine does the same for the values of two alike queries, the runs are the
same, with the same results, errors and traces. -/
theorem Database.perform_run_of_alike {σ τ ρ : Type} (db : Database σ α) (current : Option Scope)
    (access : Access) {q q' : Query α} (h : q.Alike q')
    {work : ConnectionId → String → List Cell → σ → Except DriverError ρ × σ} {w : World σ τ}
    {cells cells' : List Cell} (hcells : db.cells w.settings.enumMode q.arguments = .ok cells)
    (hcells' : db.cells w.settings.enumMode q'.arguments = .ok cells')
    (hwork : ∀ c, work c q.sql cells = work c q.sql cells') :
    (db.run current access q work).perform w = (db.run current access q' work).perform w := by
  have hconnection : (fun c => Action.onStore (work c q.sql cells)
        fun e => db.dialect.convertError e q.display : ConnectionId → Action σ τ ρ)
      = fun c => Action.onStore (work c q'.sql cells')
        fun e => db.dialect.convertError e q'.display := by
    funext c
    rw [hwork c, h.sql, h.display_eq]
  rw [run, run, Action.perform_look_bind, Action.perform_look_bind, hcells, hcells',
    Action.perform_bind_ok (Action.perform_conclude ..), hconnection,
    Action.perform_bind_ok (Action.perform_conclude ..)]

end RowMapping
