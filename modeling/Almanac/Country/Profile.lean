import Almanac.Country.Relevance
import Almanac.Strategy.Comparison

/-!
# Profiles of countries

The profile of a country is everything that its source file tells: the code and name of the
country, its subdivisions, the supported categories and languages, and the catalog of its
holidays. A file is read by the structural strategy, and by the line-pattern strategy where that
one comes to nothing. If asked for, both are run and compared.
-/

namespace Almanac.Country

open Almanac.Text Almanac.Data Almanac.Holiday Almanac.Source Almanac.Strategy

/-- What a source file tells about a country. -/
structure Profile where
  code : Text
  name : Text
  subdivisions : Entries Text Text
  categories : List Text
  languages : List Text
  holidays : Catalog
deriving DecidableEq, Repr

/-- A profile, why the structural strategy did not give its catalog if it did not, and the
comparison of the strategies if one was asked for. -/
structure Reading where
  profile : Profile
  strategyError : Option Text
  comparison : Option Comparison
deriving DecidableEq, Repr

/-- Why a source file gave no profile. -/
inductive ReadingFault where
  | irrelevant (why : Irrelevance)
  | strategy (fault : Strategy.Fault)
deriving DecidableEq, Repr

namespace Reading

/-- The code that a source file declares, or else the one that it was asked for by, in
capitals. -/
def codeOf (t : Text) (requested : Text) : Text :=
  (declaredCode? t).getD (upper requested)

/-- The name of the country: its class name in words, or its code if there is no class. -/
def nameOf (t : Text) (code : Text) : Text :=
  match className? t with
  | some name => spacedName name
  | none => code

/-- The catalog of a source file with what is known about the strategies. With token rules the
strategies are compared, the structural one using these rules. -/
def catalogOf (t : Text) (compared : Option (List TokenRule)) :
    Except Strategy.Fault (Catalog × Option Text × Option Comparison) :=
  match compared with
  | some rules =>
      (Comparison.ofText rules .suffix t).map fun (catalog, comparison) =>
        (catalog, comparison.structuralError, some comparison)
  | none => (extract t).map fun (catalog, error) => (catalog, error, none)

/-- The profile in a source file that was asked for by the given code, which may be empty. -/
def ofText (t requested : Text) (compared : Option (List TokenRule)) :
    Except ReadingFault Reading :=
  match irrelevance? t with
  | some why => .error (.irrelevant why)
  | none =>
      match catalogOf t compared with
      | .error fault => .error (.strategy fault)
      | .ok (catalog, error, comparison) =>
          let code := codeOf t requested
          .ok {
            profile := {
              code := code
              name := nameOf t code
              subdivisions := subdivisions t
              categories := supported "supported_categories" "public" t
              languages := supported "supported_languages" "en" t
              holidays := catalog }
            strategyError := error
            comparison := comparison }

end Reading
end Almanac.Country
