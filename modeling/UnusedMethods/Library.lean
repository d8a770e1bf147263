/-!
# The bundled library

Declarations of packages of the standard library that programs import often: Go sources with functions
that have no bodies. They are read and checked as any other package.
-/

namespace UnusedMethods.Library

def text (lines : List String) : String := String.join (lines.map (· ++ "\n"))

def bufio : String := text [
  "package bufio",
  "",
  "import \"io\"",
  "",
  "type Reader struct \x7b",
  "\trd io.Reader",
  "\x7d",
  "",
  "func NewReader(rd io.Reader) *Reader",
  "func (b *Reader) Read(p []byte) (n int, err error)",
  "func (b *Reader) ReadString(delim byte) (string, error)",
  "",
  "type Writer struct \x7b",
  "\twr io.Writer",
  "\x7d",
  "",
  "func NewWriter(w io.Writer) *Writer",
  "func (b *Writer) Write(p []byte) (nn int, err error)",
  "func (b *Writer) WriteString(s string) (int, error)",
  "func (b *Writer) Flush() error",
  "",
  "type Scanner struct \x7b",
  "\tr io.Reader",
  "\x7d",
  "",
  "func NewScanner(r io.Reader) *Scanner",
  "func (s *Scanner) Scan() bool",
  "func (s *Scanner) Text() string",
  "func (s *Scanner) Err() error"]

def bytes : String := text [
  "package bytes",
  "",
  "type Buffer struct \x7b",
  "\tbuf []byte",
  "\x7d",
  "",
  "func (b *Buffer) String() string",
  "func (b *Buffer) Len() int",
  "func (b *Buffer) Bytes() []byte",
  "func (b *Buffer) Reset()",
  "func (b *Buffer) Write(p []byte) (n int, err error)",
  "func (b *Buffer) WriteString(s string) (n int, err error)",
  "func (b *Buffer) Read(p []byte) (n int, err error)",
  "",
  "func Equal(a, b []byte) bool"]

def context : String := text [
  "package context",
  "",
  "import \"time\"",
  "",
  "type Context interface \x7b",
  "\tDeadline() (deadline time.Time, ok bool)",
  "\tDone() <-chan struct\x7b\x7d",
  "\tErr() error",
  "\tValue(key any) any",
  "\x7d",
  "",
  "type CancelFunc func()",
  "",
  "func Background() Context",
  "func TODO() Context",
  "func WithCancel(parent Context) (ctx Context, cancel CancelFunc)",
  "func WithTimeout(parent Context, timeout time.Duration) (Context, CancelFunc)",
  "func WithValue(parent Context, key, val any) Context"]

def json : String := text [
  "package json",
  "",
  "type Marshaler interface \x7b",
  "\tMarshalJSON() ([]byte, error)",
  "\x7d",
  "",
  "type Unmarshaler interface \x7b",
  "\tUnmarshalJSON([]byte) error",
  "\x7d",
  "",
  "func Marshal(v any) ([]byte, error)",
  "func MarshalIndent(v any, prefix, indent string) ([]byte, error)",
  "func Unmarshal(data []byte, v any) error"]

def errors : String := text [
  "package errors",
  "",
  "func New(text string) error",
  "func Is(err, target error) bool",
  "func As(err error, target any) bool",
  "func Unwrap(err error) error",
  "func Join(errs ...error) error"]

def fmt : String := text [
  "package fmt",
  "",
  "import \"io\"",
  "",
  "type Stringer interface \x7b",
  "\tString() string",
  "\x7d",
  "",
  "type GoStringer interface \x7b",
  "\tGoString() string",
  "\x7d",
  "",
  "type Formatter interface \x7b",
  "\tFormat(f State, verb rune)",
  "\x7d",
  "",
  "type State interface \x7b",
  "\tWrite(b []byte) (n int, err error)",
  "\tWidth() (wid int, ok bool)",
  "\tPrecision() (prec int, ok bool)",
  "\tFlag(c int) bool",
  "\x7d",
  "",
  "func Print(a ...any) (n int, err error)",
  "func Println(a ...any) (n int, err error)",
  "func Printf(format string, a ...any) (n int, err error)",
  "func Sprint(a ...any) string",
  "func Sprintln(a ...any) string",
  "func Sprintf(format string, a ...any) string",
  "func Fprint(w io.Writer, a ...any) (n int, err error)",
  "func Fprintln(w io.Writer, a ...any) (n int, err error)",
  "func Fprintf(w io.Writer, format string, a ...any) (n int, err error)",
  "func Errorf(format string, a ...any) error",
  "func Append(b []byte, a ...any) []byte",
  "func Appendf(b []byte, format string, a ...any) []byte",
  "func Appendln(b []byte, a ...any) []byte",
  "func Sscanf(str string, format string, a ...any) (n int, err error)"]

def io : String := text [
  "package io",
  "",
  "type Reader interface \x7b",
  "\tRead(p []byte) (n int, err error)",
  "\x7d",
  "",
  "type Writer interface \x7b",
  "\tWrite(p []byte) (n int, err error)",
  "\x7d",
  "",
  "type Closer interface \x7b",
  "\tClose() error",
  "\x7d",
  "",
  "type ReadWriter interface \x7b",
  "\tReader",
  "\tWriter",
  "\x7d",
  "",
  "type ReadCloser interface \x7b",
  "\tReader",
  "\tCloser",
  "\x7d",
  "",
  "type WriteCloser interface \x7b",
  "\tWriter",
  "\tCloser",
  "\x7d",
  "",
  "type ReadWriteCloser interface \x7b",
  "\tReader",
  "\tWriter",
  "\tCloser",
  "\x7d",
  "",
  "type StringWriter interface \x7b",
  "\tWriteString(s string) (n int, err error)",
  "\x7d",
  "",
  "var EOF error",
  "",
  "func Copy(dst Writer, src Reader) (written int64, err error)",
  "func ReadAll(r Reader) ([]byte, error)",
  "func WriteString(w Writer, s string) (n int, err error)"]

def log : String := text [
  "package log",
  "",
  "func Print(v ...any)",
  "func Printf(format string, v ...any)",
  "func Println(v ...any)",
  "func Fatal(v ...any)",
  "func Fatalf(format string, v ...any)",
  "func Panicf(format string, v ...any)"]

def http : String := text [
  "package http",
  "",
  "import (",
  "\t\"context\"",
  "\t\"io\"",
  ")",
  "",
  "type Header map[string][]string",
  "",
  "func (h Header) Get(key string) string",
  "func (h Header) Set(key, value string)",
  "",
  "type Request struct \x7b",
  "\tMethod string",
  "\tHeader Header",
  "\tBody   io.ReadCloser",
  "\x7d",
  "",
  "func (r *Request) Context() context.Context",
  "",
  "type Response struct \x7b",
  "\tStatusCode int",
  "\tHeader     Header",
  "\tBody       io.ReadCloser",
  "\x7d",
  "",
  "type ResponseWriter interface \x7b",
  "\tHeader() Header",
  "\tWrite([]byte) (int, error)",
  "\tWriteHeader(statusCode int)",
  "\x7d",
  "",
  "type Handler interface \x7b",
  "\tServeHTTP(ResponseWriter, *Request)",
  "\x7d",
  "",
  "type HandlerFunc func(ResponseWriter, *Request)",
  "",
  "func (f HandlerFunc) ServeHTTP(w ResponseWriter, r *Request)",
  "",
  "type ServeMux struct \x7b",
  "\tmu int",
  "\x7d",
  "",
  "func NewServeMux() *ServeMux",
  "func (mux *ServeMux) Handle(pattern string, handler Handler)",
  "func (mux *ServeMux) HandleFunc(pattern string, handler func(ResponseWriter, *Request))",
  "",
  "func Handle(pattern string, handler Handler)",
  "func HandleFunc(pattern string, handler func(ResponseWriter, *Request))",
  "func ListenAndServe(addr string, handler Handler) error",
  "func Get(url string) (resp *Response, err error)",
  "func Error(w ResponseWriter, error string, code int)",
  "",
  "const (",
  "\tStatusOK                  = 200",
  "\tStatusNotFound            = 404",
  "\tStatusInternalServerError = 500",
  ")"]

def os : String := text [
  "package os",
  "",
  "type File struct \x7b",
  "\tname string",
  "\x7d",
  "",
  "func (f *File) Name() string",
  "func (f *File) Read(b []byte) (n int, err error)",
  "func (f *File) Write(b []byte) (n int, err error)",
  "func (f *File) WriteString(s string) (n int, err error)",
  "func (f *File) Close() error",
  "",
  "var (",
  "\tStdin  *File",
  "\tStdout *File",
  "\tStderr *File",
  "\tArgs   []string",
  ")",
  "",
  "func Open(name string) (*File, error)",
  "func Create(name string) (*File, error)",
  "func ReadFile(name string) ([]byte, error)",
  "func WriteFile(name string, data []byte, perm uint32) error",
  "func Getenv(key string) string",
  "func Exit(code int)"]

def sort : String := text [
  "package sort",
  "",
  "type Interface interface \x7b",
  "\tLen() int",
  "\tLess(i, j int) bool",
  "\tSwap(i, j int)",
  "\x7d",
  "",
  "func Sort(data Interface)",
  "func Stable(data Interface)",
  "func Slice(x any, less func(i, j int) bool)",
  "func Strings(x []string)",
  "func Ints(x []int)"]

def strconv : String := text [
  "package strconv",
  "",
  "func Itoa(i int) string",
  "func Atoi(s string) (int, error)",
  "func FormatInt(i int64, base int) string",
  "func ParseInt(s string, base int, bitSize int) (i int64, err error)",
  "func ParseBool(str string) (bool, error)",
  "func Quote(s string) string"]

def strings : String := text [
  "package strings",
  "",
  "type Builder struct \x7b",
  "\tbuf []byte",
  "\x7d",
  "",
  "func (b *Builder) String() string",
  "func (b *Builder) Len() int",
  "func (b *Builder) Reset()",
  "func (b *Builder) Write(p []byte) (int, error)",
  "func (b *Builder) WriteByte(c byte) error",
  "func (b *Builder) WriteRune(r rune) (int, error)",
  "func (b *Builder) WriteString(s string) (int, error)",
  "",
  "func Contains(s, substr string) bool",
  "func HasPrefix(s, prefix string) bool",
  "func HasSuffix(s, suffix string) bool",
  "func Join(elems []string, sep string) string",
  "func Split(s, sep string) []string",
  "func ToLower(s string) string",
  "func ToUpper(s string) string",
  "func TrimSpace(s string) string",
  "func Repeat(s string, count int) string"]

def sync : String := text [
  "package sync",
  "",
  "type Locker interface \x7b",
  "\tLock()",
  "\tUnlock()",
  "\x7d",
  "",
  "type Mutex struct \x7b",
  "\tstate int32",
  "\x7d",
  "",
  "func (m *Mutex) Lock()",
  "func (m *Mutex) Unlock()",
  "func (m *Mutex) TryLock() bool",
  "",
  "type RWMutex struct \x7b",
  "\tw Mutex",
  "\x7d",
  "",
  "func (rw *RWMutex) Lock()",
  "func (rw *RWMutex) Unlock()",
  "func (rw *RWMutex) RLock()",
  "func (rw *RWMutex) RUnlock()",
  "",
  "type WaitGroup struct \x7b",
  "\tstate uint64",
  "\x7d",
  "",
  "func (wg *WaitGroup) Add(delta int)",
  "func (wg *WaitGroup) Done()",
  "func (wg *WaitGroup) Wait()",
  "",
  "type Once struct \x7b",
  "\tdone uint32",
  "\x7d",
  "",
  "func (o *Once) Do(f func())"]

def time : String := text [
  "package time",
  "",
  "type Duration int64",
  "",
  "func (d Duration) String() string",
  "func (d Duration) Seconds() float64",
  "func (d Duration) Milliseconds() int64",
  "",
  "const (",
  "\tNanosecond  Duration = 1",
  "\tMicrosecond          = 1000 * Nanosecond",
  "\tMillisecond          = 1000 * Microsecond",
  "\tSecond               = 1000 * Millisecond",
  "\tMinute               = 60 * Second",
  "\tHour                 = 60 * Minute",
  ")",
  "",
  "type Time struct \x7b",
  "\twall uint64",
  "\x7d",
  "",
  "func (t Time) String() string",
  "func (t Time) Unix() int64",
  "func (t Time) Add(d Duration) Time",
  "func (t Time) Sub(u Time) Duration",
  "func (t Time) Before(u Time) bool",
  "func (t Time) After(u Time) bool",
  "func (t Time) Format(layout string) string",
  "",
  "func Now() Time",
  "func Since(t Time) Duration",
  "func Sleep(d Duration)"]

def sources : List (String × String) := [
  ("bufio", bufio),
  ("bytes", bytes),
  ("context", context),
  ("encoding/json", json),
  ("errors", errors),
  ("fmt", fmt),
  ("io", io),
  ("log", log),
  ("net/http", http),
  ("os", os),
  ("sort", sort),
  ("strconv", strconv),
  ("strings", strings),
  ("sync", sync),
  ("time", time)]

def source? (path : String) : Option String := sources.lookup path

/-- Whether an import path can be one of the standard library: its first element has no dot. -/
def isStandardPath (path : String) : Bool := !((path.splitOn "/").headD "").contains '.'

end UnusedMethods.Library
