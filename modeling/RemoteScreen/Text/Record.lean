/-!
The one-line form in which records are shown for inspection: a name, then the named fields between
braces.
-/

namespace RemoteScreen.Record

def fields (entries : List (String × String)) : String :=
  String.intercalate ", " (entries.map fun (name, value) => name ++ ": " ++ value)

def whole (name : String) (entries : List (String × String)) : String :=
  name ++ " \x7b " ++ fields entries ++ " \x7d"

def partly (name : String) (entries : List (String × String)) : String :=
  name ++ " \x7b " ++ fields entries ++ ", .. \x7d"

end RemoteScreen.Record
