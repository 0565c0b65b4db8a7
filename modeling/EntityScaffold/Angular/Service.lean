import EntityScaffold.Angular.Symbols

/-!
# The service of an entity

The service talks to the server. Dates travel as texts, so they are converted on the way out and on
the way in.
-/

namespace EntityScaffold.Angular

open Generation TypeScript

/-- The file of an entity's service. -/
structure Service where
  symbols : Symbols
  dateImports : List Import
  /-- The address of the entity's resource. -/
  resourceUrl : String
  /-- The properties that hold dates. -/
  dates : List String

namespace Service

/-- The service of an entity at an address. -/
def ofContext (apiBaseUrl : String) (context : Context) : Service where
  symbols := .ofName context.entity.name
  dateImports := Angular.dateImports context
  resourceUrl := s!"{apiBaseUrl}/{context.plural}"
  dates := (dateFields context).map Field.name

/-- A date made into a text for the server. -/
def dateToText (name : String) : String := s!"{name}: entity.{name}?.toJSON() ?? null,"

/-- A text of the server made into a date. -/
def dateFromText (name : String) : String :=
  s!"{name}: entity.{name} ? dayjs(entity.{name}) : undefined,"

/-- The wish for the whole response. -/
def observed : String := braced "observe: 'response'"

/-- The address of one entity, by an expression for its number. -/
def addressOf (number : String) : String :=
  "`" ++ spliced "this.resourceUrl" ++ "/" ++ spliced number ++ "`"

/-- A request, and what converts its response. -/
def request (call : Code) (conversion : String) : Code :=
  Code.lines ["return this.http"] ++
    Code.indent (call ++ Code.lines [s!".pipe(map(res => this.{conversion}(res)));"])

/-- The methods that send requests. -/
def requests (symbols : Symbols) : Code :=
  let p := symbols.pascal
  let c := symbols.camel
  Code.block s!"create({c}: New{p}): Observable<EntityResponseType> "
    (request
      (Code.lines
        [s!".post<I{p}>(this.resourceUrl, this.convertDatesFromClient({c}), {observed})"])
      "convertResponseFromServer") "" ++
  Code.lines [""] ++
  Code.block s!"update({c}: I{p}): Observable<EntityResponseType> "
    (request
      (Code.block
        (s!".put<I{p}>(" ++ addressOf s!"{c}.id" ++ s!", this.convertDatesFromClient({c}), ")
        (Code.lines ["observe: 'response',"]) ")")
      "convertResponseFromServer") "" ++
  Code.lines [""] ++
  Code.block "find(id: number): Observable<EntityResponseType> "
    (request (Code.lines [s!".get<I{p}>(" ++ addressOf "id" ++ s!", {observed})"])
      "convertResponseFromServer") "" ++
  Code.lines [""] ++
  Code.block "query(params?: HttpParams): Observable<EntityArrayResponseType> "
    (request
      (Code.lines
        [s!".get<I{p}[]>(this.resourceUrl, " ++ braced "params, observe: 'response'" ++ ")"])
      "convertResponseArrayFromServer") "" ++
  Code.lines [""] ++
  Code.block "delete(id: number): Observable<HttpResponse<\x7b\x7d>> "
    (Code.lines ["return this.http.delete(" ++ addressOf "id" ++ s!", {observed});"]) ""

/-- The methods that convert. -/
def conversions (service : Service) : Code :=
  let p := service.symbols.pascal
  Code.block s!"protected convertDatesFromClient<T extends I{p} | New{p}>(entity: T): T "
    (Code.block "return " (Code.lines ("...entity," :: service.dates.map dateToText)) " as T;")
    "" ++
  Code.lines [""] ++
  Code.block s!"protected convertDatesFromServer(entity: I{p}): I{p} "
    (Code.block "return " (Code.lines ("...entity," :: service.dates.map dateFromText)) ";") "" ++
  Code.lines [""] ++
  Code.block
    s!"protected convertResponseFromServer(res: HttpResponse<I{p}>): HttpResponse<I{p}> "
    (Code.block "return res.clone("
      (Code.lines ["body: res.body ? this.convertDatesFromServer(res.body) : null,"]) ");") "" ++
  Code.lines [""] ++
  Code.block
    s!"protected convertResponseArrayFromServer(res: HttpResponse<I{p}[]>): HttpResponse<I{p}[]> "
    (Code.block "return res.clone("
      (Code.lines
        ["body: res.body ? res.body.map(item => this.convertDatesFromServer(item)) : null,"])
      ");") ""

def imports (service : Service) : List (List Import) :=
  let p := service.symbols.pascal
  [[.symbols ["Injectable", "inject"] "@angular/core",
      .symbols ["HttpClient", "HttpParams", "HttpResponse"] "@angular/common/http",
      .symbols ["Observable", "map"] "rxjs"] ++ service.dateImports,
    [.symbols [s!"I{p}", s!"New{p}"] s!"../{service.symbols.kebab}.model"]]

def file (service : Service) : SourceFile where
  imports := service.imports
  body :=
    let p := service.symbols.pascal
    Code.lines
      [s!"export type EntityResponseType = HttpResponse<I{p}>;",
        s!"export type EntityArrayResponseType = HttpResponse<I{p}[]>;",
        "",
        "@Injectable(" ++ braced "providedIn: 'root'" ++ ")"] ++
    Code.block s!"export class {p}Service "
      (Code.lines
          ["private readonly http = inject(HttpClient);",
            s!"private readonly resourceUrl = '{service.resourceUrl}';",
            ""] ++
        requests service.symbols ++ Code.lines [""] ++ service.conversions)
      ""

end Service

end EntityScaffold.Angular
