import Sheprd.Lib.Replace
import Sheprd.Orchestrator.Github

namespace Sheprd.Orchestrator

open Lib

inductive Error where
  | provider (value : String)
  | itemKey (value : String)

def Provider.asStr : Provider → String
  | azure => "azure"
  | github => "github"
  | gitlab => "gitlab"
  | beads => "beads"

def Provider.fromStr (value : String) : Except Error Provider :=
  if value = "azure" then .ok azure
  else if value = "github" then .ok github
  else if value = "gitlab" then .ok gitlab
  else if value = "beads" then .ok beads
  else .error (.provider value)

def component (value : String) : String :=
  .ofList (Text.replace [':'] ['%', '3', 'A'] (Text.replace ['%'] ['%', '2', '5'] value.toList))

def uncomponent (value : String) : String :=
  .ofList (Text.replace ['%', '2', '5'] ['%'] (Text.replace ['%', '3', 'A'] [':'] value.toList))

def SourceKey.canonical (key : SourceKey) : String :=
  key.provider.asStr ++ ":" ++ component key.host ++ ":" ++ component key.repository

def ItemKey.canonical (key : ItemKey) : String := key.source.canonical ++ ":" ++ component key.nativeId

def ItemKey.fromStr (value : String) : Except Error ItemKey :=
  match Text.splitOn [':'] value.toList with
  | [provider, host, repository, nativeId] =>
      if nativeId = [] then .error (.itemKey value)
      else do
        let provider ← Provider.fromStr (.ofList provider)
        return {
          source :=
          { provider, host := uncomponent (.ofList host), repository := uncomponent (.ofList repository) }
          nativeId := uncomponent (.ofList nativeId) }
  | _ => .error (.itemKey value)

lemma Provider.fromStr_asStr (provider : Provider) : Provider.fromStr provider.asStr = .ok provider := by
  cases provider <;> simp [Provider.asStr, Provider.fromStr]

lemma Provider.colon_not_mem (provider : Provider) : ':' ∉ provider.asStr.toList := by
  cases provider <;> simp [Provider.asStr]

def percent (c : Char) : List Char := if c = '%' then ['%', '2', '5'] else [c]

def escape (c : Char) : List Char := if c = ':' then ['%', '3', 'A'] else percent c

lemma component_eq (value : String) : component value = .ofList (value.toList.flatMap escape) := by
  have hescape : ∀ c : Char,
      ((percent c).flatMap fun c => if c = ':' then ['%', '3', 'A'] else [c]) = escape c := by
    intro c
    by_cases hpercent : c = '%'
    · subst hpercent
      rfl
    · simp [percent, escape, hpercent]
  rw [component, Text.replace_singleton, Text.replace_singleton, List.flatMap_assoc]
  exact congrArg String.ofList (List.flatMap_congr fun c _ => hescape c)

lemma replace_colons (text : List Char) :
    Text.replace ['%', '3', 'A'] [':'] (text.flatMap escape) = text.flatMap percent := by
  induction text with
  | nil => rfl
  | cons c text ih =>
    rw [List.flatMap_cons, List.flatMap_cons]
    by_cases hcolon : c = ':'
    · subst hcolon
      rw [← ih]
      exact Text.replace_pattern (text.flatMap escape)
    · rw [escape, if_neg hcolon, percent]
      split
      · -- An escaped percent sign begins no escaped colon.
        have hother : ¬ ['%', '3', 'A'] <+: '%' :: '2' :: '5' :: text.flatMap escape := by simp
        have hrest : '%' ∉ ['2', '5'] := by simp
        rw [← ih]
        exact (Text.replace_other hother).trans (congrArg _ (Text.replace_of_not_mem hrest _))
      · rename_i hpercent
        rw [List.singleton_append, Text.replace_cons_of_ne hpercent, ih, List.singleton_append]

lemma replace_percents (text : List Char) :
    Text.replace ['%', '2', '5'] ['%'] (text.flatMap percent) = text := by
  induction text with
  | nil => rfl
  | cons c text ih =>
    rw [List.flatMap_cons, percent]
    split
    · rename_i hpercent
      subst hpercent
      exact (Text.replace_pattern (text.flatMap percent)).trans (congrArg _ ih)
    · rename_i hpercent
      rw [List.singleton_append, Text.replace_cons_of_ne hpercent, ih]

lemma uncomponent_component (value : String) : uncomponent (component value) = value := by
  rw [component_eq, uncomponent, String.toList_ofList, replace_colons, replace_percents, String.ofList_toList]

lemma component_injective : Function.Injective component :=
  Function.LeftInverse.injective uncomponent_component

lemma colon_not_mem_component (value : String) : ':' ∉ (component value).toList := by
  rw [component_eq, String.toList_ofList, List.mem_flatMap]
  rintro ⟨c, -, hc⟩
  rw [escape, percent] at hc
  split at hc
  · simp at hc
  · rename_i hcolon
    split at hc
    · simp at hc
    · exact hcolon (List.mem_singleton.mp hc).symm

lemma component_ne_nil {value : String} (h : value ≠ "") : (component value).toList ≠ [] := by
  intro hnil
  refine h (component_injective (String.toList_inj.mp ?_))
  rw [hnil]
  rfl

lemma splitOn_source (key : SourceKey) (back : List Char) :
    Text.splitOn [':'] (key.canonical.toList ++ ':' :: back) =
      key.provider.asStr.toList :: (component key.host).toList :: (component key.repository).toList ::
        Text.splitOn [':'] back := by
  have hsplit : ∀ {front : List Char}, ':' ∉ front → ∀ back,
      Text.splitOn [':'] (front ++ ':' :: back) = front :: Text.splitOn [':'] back := by
    intro front hfront back
    refine Text.splitOn_append List.mem_cons_self (fun c hc hcolon => hfront ?_) back
    obtain rfl := List.mem_singleton.mp hcolon
    exact hc
  have hparts : key.canonical.toList ++ ':' :: back = key.provider.asStr.toList ++ ':' ::
      ((component key.host).toList ++ ':' :: ((component key.repository).toList ++ ':' :: back)) := by
    simp [SourceKey.canonical]
  rw [hparts, hsplit key.provider.colon_not_mem, hsplit (colon_not_mem_component _),
    hsplit (colon_not_mem_component _)]

lemma splitOn_item (key : ItemKey) :
    Text.splitOn [':'] key.canonical.toList =
      [key.source.provider.asStr.toList, (component key.source.host).toList,
        (component key.source.repository).toList, (component key.nativeId).toList] := by
  have hparts : key.canonical.toList = key.source.canonical.toList ++ ':' :: (component key.nativeId).toList := by
    simp [ItemKey.canonical]
  have hid : ∀ c ∈ (component key.nativeId).toList, c ∉ [':'] := by
    intro c hc hcolon
    obtain rfl := List.mem_singleton.mp hcolon
    exact colon_not_mem_component key.nativeId hc
  rw [hparts, splitOn_source, Text.splitOn_whole hid]

lemma Provider.asStr_injective : Function.Injective Provider.asStr := by
  intro a b h
  have hok := a.fromStr_asStr
  rw [h, b.fromStr_asStr] at hok
  exact (Except.ok.inj hok).symm

lemma SourceKey.ext_parts {a b : SourceKey} (hprovider : a.provider.asStr.toList = b.provider.asStr.toList)
    (hhost : (component a.host).toList = (component b.host).toList)
    (hrepository : (component a.repository).toList = (component b.repository).toList) : a = b := by
  cases a
  cases b
  rw [SourceKey.mk.injEq]
  exact ⟨Provider.asStr_injective (String.toList_inj.mp hprovider),
    component_injective (String.toList_inj.mp hhost), component_injective (String.toList_inj.mp hrepository)⟩

lemma SourceKey.canonical_injective : Function.Injective SourceKey.canonical := by
  intro a b h
  have hparts := splitOn_source a []
  rw [h, splitOn_source b []] at hparts
  obtain ⟨hprovider, hparts⟩ := List.cons.inj hparts
  obtain ⟨hhost, hparts⟩ := List.cons.inj hparts
  exact (SourceKey.ext_parts hprovider hhost (List.cons.inj hparts).1).symm

lemma ItemKey.canonical_injective : Function.Injective ItemKey.canonical := by
  intro a b h
  have hparts := splitOn_item a
  rw [h, splitOn_item b] at hparts
  obtain ⟨hprovider, hparts⟩ := List.cons.inj hparts
  obtain ⟨hhost, hparts⟩ := List.cons.inj hparts
  obtain ⟨hrepository, hparts⟩ := List.cons.inj hparts
  have hsource := SourceKey.ext_parts hprovider hhost hrepository
  have hid := component_injective (String.toList_inj.mp (List.cons.inj hparts).1)
  cases a
  cases b
  rw [ItemKey.mk.injEq]
  exact ⟨hsource.symm, hid.symm⟩

lemma ItemKey.fromStr_canonical {key : ItemKey} (h : key.nativeId ≠ "") :
    ItemKey.fromStr key.canonical = .ok key := by
  rw [ItemKey.fromStr, splitOn_item]
  dsimp only
  rw [if_neg (component_ne_nil h)]
  simp [Provider.fromStr_asStr, uncomponent_component, pure, Except.pure, bind, Except.bind]

theorem ItemKey.canonical_faithful :
    (∀ key : ItemKey, key.nativeId ≠ "" → ItemKey.fromStr key.canonical = .ok key) ∧
      Function.Injective ItemKey.canonical ∧ Function.Injective SourceKey.canonical :=
  ⟨fun _ => ItemKey.fromStr_canonical, ItemKey.canonical_injective, SourceKey.canonical_injective⟩

end Sheprd.Orchestrator
