/-!
# English words with a plural of their own

Pronouns, verbs and nouns whose plural no rule of endings gives, and nouns that have none.
-/

namespace EntityScaffold.Naming

/-- Words and their plurals, each singular once. -/
def irregularPlurals : List (String × String) :=
  [
    ("i", "we"), ("me", "us"), ("he", "they"), ("she", "they"), ("them", "them"),
    ("myself", "ourselves"), ("yourself", "yourselves"), ("itself", "themselves"),
    ("herself", "themselves"), ("himself", "themselves"), ("themself", "themselves"),
    ("is", "are"), ("was", "were"), ("has", "have"), ("this", "these"), ("that", "those"),
    ("my", "our"), ("its", "their"), ("his", "their"), ("her", "their"), ("echo", "echoes"),
    ("dingo", "dingoes"), ("volcano", "volcanoes"), ("tornado", "tornadoes"),
    ("torpedo", "torpedoes"), ("genus", "genera"), ("viscus", "viscera"), ("stigma", "stigmata"),
    ("stoma", "stomata"), ("dogma", "dogmata"), ("lemma", "lemmata"), ("schema", "schemata"),
    ("anathema", "anathemata"), ("ox", "oxen"), ("axe", "axes"), ("die", "dice"),
    ("yes", "yeses"), ("foot", "feet"), ("eave", "eaves"), ("goose", "geese"), ("tooth", "teeth"),
    ("quiz", "quizzes"), ("human", "humans"), ("proof", "proofs"), ("carve", "carves"),
    ("valve", "valves"), ("looey", "looies"), ("thief", "thieves"), ("groove", "grooves"),
    ("pickaxe", "pickaxes"), ("passerby", "passersby"), ("canvas", "canvases")]

/-- Words whose plural is the word itself. -/
def uncountables : List String :=
  [
    "adulthood", "advice", "agenda", "aid", "aircraft", "alcohol", "ammo", "analytics", "anime",
    "athletics", "audio", "bison", "blood", "bream", "buffalo", "butter", "carp", "cash",
    "chassis", "chess", "clothing", "cod", "commerce", "cooperation", "corps", "debris",
    "diabetes", "digestion", "elk", "energy", "equipment", "excretion", "expertise", "firmware",
    "flounder", "fun", "gallows", "garbage", "graffiti", "hardware", "headquarters", "health",
    "herpes", "highjinks", "homework", "housework", "information", "jeans", "justice", "kudos",
    "labour", "literature", "machinery", "mackerel", "mail", "media", "mews", "moose", "music",
    "mud", "manga", "news", "only", "personnel", "pike", "plankton", "pliers", "police",
    "pollution", "premises", "rain", "research", "rice", "salmon", "scissors", "series", "sewage",
    "shambles", "shrimp", "software", "staff", "swine", "tennis", "traffic", "transportation",
    "trout", "tuna", "wealth", "welfare", "whiting", "wildebeest", "wildlife", "you"]

end EntityScaffold.Naming
