import Almanac.Text.Wide

/-!
# The table of countries

Each country that is known has a two-letter code and a source file. The table is closed: codes and
file names that are not in it are refused, never guessed.
-/

namespace Almanac.Country

open Almanac.Text

/-- The codes of the known countries and the names of their source files, as written. -/
def writtenTable : List (String × String) :=
  [("AE", "united_arab_emirates.py"), ("AR", "argentina.py"), ("AT", "austria.py"),
   ("AU", "australia.py"), ("BD", "bangladesh.py"), ("BE", "belgium.py"), ("BG", "bulgaria.py"),
   ("BH", "bahrain.py"), ("BO", "bolivia.py"), ("BR", "brazil.py"), ("BY", "belarus.py"),
   ("CA", "canada.py"), ("CH", "switzerland.py"), ("CL", "chile.py"), ("CN", "china.py"),
   ("CO", "colombia.py"), ("CY", "cyprus.py"), ("CZ", "czechia.py"), ("DE", "germany.py"),
   ("DK", "denmark.py"), ("EC", "ecuador.py"), ("EE", "estonia.py"), ("EG", "egypt.py"),
   ("ES", "spain.py"), ("FI", "finland.py"), ("FR", "france.py"), ("GB", "united_kingdom.py"),
   ("GR", "greece.py"), ("HK", "hong_kong.py"), ("HR", "croatia.py"), ("HU", "hungary.py"),
   ("ID", "indonesia.py"), ("IE", "ireland.py"), ("IL", "israel.py"), ("IN", "india.py"),
   ("IQ", "iraq.py"), ("IR", "iran.py"), ("IT", "italy.py"), ("JO", "jordan.py"),
   ("JP", "japan.py"), ("KH", "cambodia.py"), ("KR", "south_korea.py"), ("KW", "kuwait.py"),
   ("LA", "laos.py"), ("LB", "lebanon.py"), ("LK", "sri_lanka.py"), ("LT", "lithuania.py"),
   ("LU", "luxembourg.py"), ("LV", "latvia.py"), ("MM", "myanmar.py"), ("MN", "mongolia.py"),
   ("MT", "malta.py"), ("MX", "mexico.py"), ("MY", "malaysia.py"), ("NL", "netherlands.py"),
   ("NO", "norway.py"), ("NP", "nepal.py"), ("NZ", "new_zealand.py"), ("OM", "oman.py"),
   ("PE", "peru.py"), ("PH", "philippines.py"), ("PK", "pakistan.py"), ("PL", "poland.py"),
   ("PT", "portugal.py"), ("PY", "paraguay.py"), ("QA", "qatar.py"), ("RO", "romania.py"),
   ("RU", "russia.py"), ("SA", "saudi_arabia.py"), ("SE", "sweden.py"), ("SG", "singapore.py"),
   ("SI", "slovenia.py"), ("SK", "slovakia.py"), ("TH", "thailand.py"), ("TR", "turkey.py"),
   ("TW", "taiwan.py"), ("UA", "ukraine.py"), ("US", "united_states.py"), ("UY", "uruguay.py"),
   ("VE", "venezuela.py"), ("VN", "vietnam.py"), ("ZA", "south_africa.py")]

/-- The codes of the known countries and the names of their source files. -/
def sourceFiles : List (Text × Text) :=
  writtenTable.map fun (code, file) => (code.toList, file.toList)

/-- The name of the source file of a country. White space around the code and its case do not
matter. -/
def sourceFile? (code : Text) : Option Text :=
  sourceFiles.lookup (upper (strip code))

def codeOfSourceFile? (file : Text) : Option Text :=
  (sourceFiles.find? fun entry => entry.2 = file).map Prod.fst

def knownCodes : List Text :=
  Text.sort (sourceFiles.map Prod.fst)

def unknownMessage (value : Text) : Text :=
  "Unknown country code or filename: '" ++ value ++ "'"

end Almanac.Country
